import Rt64.Kernel.Creation

/-!
# The life of a process

A process begins with a switch to a context that `spawn` or `spawnuser` has made
up: the first leads to its function, the second to `trapret` and through the trap
frame above the context's stack pointer to user mode.  When the function returns,
it returns to code that passes its value on to `exit`, for a user process by way
of a system call.
-/

namespace Rt64.Kernel.ProcessLife

open Rt64.Lib.ByteMemory
open Rt64.Lib.Transition
open Rt64.Lib.X64
open Rt64.Include.Defs
open Rt64.Kernel.Process
open Rt64.Kernel.Spawn
open Rt64.Kernel.Switch
open Rt64.Kernel.Isolation
open Rt64.Kernel.Processor
open Rt64.Kernel.Rounds
open Rt64.Kernel.Scheduler
open Rt64.Kernel.Threads
open Rt64.Kernel.Trap
open Rt64.Kernel.Contracts
open Rt64.Kernel.Main
open Rt64.Kernel.ProcessTable
open Rt64.Kernel.HardwareContext
open Rt64.Kernel.Creation

/-! ## The first dispatch -/

/-- The processor is at the first instruction of a kernel thread. -/
structure EntersKernel (layout : Layout) (desc : NewProcDesc) (kstack : Addr)
    (cpu : Cpu) : Prop where
  rip : cpu.rip = desc.func
  cpl : cpu.cpl = 0
  rdi : cpu.regs .rdi = desc.initarg
  rsp : cpu.regs .rsp = kstack + kstackSz - 8
  ret : load64 cpu.mem (cpu.regs .rsp) = layout.spawnret

/-- The processor is at the first instruction of a user process. -/
structure EntersUser (layout : Layout) (desc : NewProcDesc) (ustack : Addr)
    (cpu : Cpu) : Prop where
  rip : cpu.rip = desc.func
  cs : cpu.cs = (segUcode <<< 3 ||| dplUser).setWidth 16
  ss : cpu.ss = (segUdata <<< 3 ||| dplUser).setWidth 16
  cpl : cpu.cpl = 3
  interruptible : cpu.rflags &&& interruptFlag ≠ 0
  rdi : cpu.regs .rdi = desc.initarg
  others : ∀ reg, reg ≠ .rdi → reg ≠ .rsp → cpu.regs reg = 0
  rsp : cpu.regs .rsp = ustack + ustackSz - 8

section Dispatch

variable {layout : Layout} {areas : Stacks layout} {p : Nat} {mem : Memory}
variable {before back : System} {desc : NewProcDesc}
variable (isOff : Off areas p mem before)
variable (enters : Step areas before back) (resumed : back.machine.thread = p)
variable (process : p ≠ 0)
include isOff enters resumed process

theorem entersKernel (kernelMode : before.cpu.cpl = 0)
    (entry : KernelEntry layout desc p mem) :
    EntersKernel layout desc (kstackAddr layout p) back.cpu := by
  rcases isOff.back enters resumed with ⟨taken, kept⟩
  rw [entry.ctx] at taken
  have top : kstackAddr layout p + kstackSz - xlenb - xlenb + 8 =
      kstackAddr layout p + kstackSz - 8 := by
    bv_omega
  have word : kstackAddr layout p + kstackSz - xlenb - xlenb + 8 =
      kstackAddr layout p + BitVec.ofNat 64 4088 := by
    bv_omega
  have rsp : back.cpu.regs .rsp =
      kstackAddr layout p + kstackSz - xlenb - xlenb + 8 := by
    rw [taken]
    rfl
  have cpl : back.cpu.cpl = before.cpu.cpl := by
    rw [taken]
    rfl
  refine ⟨by rw [taken]; rfl, cpl.trans kernelMode, by rw [taken]; rfl,
    rsp.trans top, ?_⟩
  rw [rsp, word, ← entry.ret, taken]
  -- `swtch` stores `rip` in the word below
  have apart : Apart (kstackAddr layout p + BitVec.ofNat 64 4088) 8
      (kstackAddr layout p + kstackSz - xlenb - xlenb) 8 := by
    intro address inWord inSlot
    simp only [Within] at inWord inSlot
    bv_omega
  refine (load64_store64_apart _ _ _ _ apart).trans ?_
  apply load64_congr
  intro address inside
  exact kept address (Or.inr (inStack_of_kstack process
    (inside.of_offset (by decide) (by decide))))

theorem entersTrapret (entry : UserEntry layout desc p mem) :
    back.cpu.rip = layout.trapret ∧
      EntersUser layout desc (ustackAddr layout p)
        (trapret.run back.cpu) := by
  rcases isOff.back enters resumed with ⟨taken, kept⟩
  rw [entry.ctx] at taken
  have rsp : back.cpu.regs .rsp = firstTf layout p := by
    have up : firstTf layout p - xlenb + 8 = firstTf layout p := by
      bv_omega
    rw [taken, ← up]
    rfl
  have tf : tfAt back.cpu.mem (firstTf layout p) =
      spawnuserTf layout desc p := by
    -- `swtch` stores `rip` in the word below the frame
    have apart : Apart (firstTf layout p) 176 (firstTf layout p - xlenb) 8 := by
      intro address inFrame inSlot
      simp only [Within] at inFrame inSlot
      bv_omega
    rw [taken, ← entry.tf]
    refine (tfAt_store_apart apart).trans ?_
    apply trapframeRecord.read_congr
    intro address inside
    exact kept address (Or.inr (inStack_of_kstack process
      (within_kstack_of_firstTf inside)))
  refine ⟨by rw [taken]; rfl, ?_⟩
  rw [trapret_run, rsp, tf]
  refine ⟨rfl, rfl, rfl, ?_, ?_, rfl, ?_, rfl⟩
  · show (((segUcode <<< 3 ||| dplUser).setWidth 16 &&& 3#16 : BitVec 16)).toNat
      = 3
    decide
  · show (flIf &&& interruptFlag : BitVec 64) ≠ 0
    decide
  · intro reg notRdi notRsp
    cases reg with
    | rdi => exact absurd rfl notRdi
    | rsp => exact absurd rfl notRsp
    | _ => rfl

/-- The return address of the user function, if its stack has been left alone. -/
theorem spawnuserret_on_ustack (valid : Valid layout) (bound : p < maxProc)
    (entry : UserEntry layout desc p mem)
    (alone : ∀ address, Within (ustackAddr layout p) 4096 address →
      before.cpu.mem address = mem address) :
    load64 (trapret.run back.cpu).mem
      (ustackAddr layout p + BitVec.ofNat 64 4088) =
        layout.spawnuserret := by
  rcases isOff.back_outside enters resumed with ⟨old, oldBound, outside⟩
  rw [← entry.ret, trapret_run]
  apply load64_congr
  intro address inside
  have inUstack : Within (ustackAddr layout p) 4096 address :=
    inside.of_offset (by decide) (by decide)
  refine (outside address ?_ ?_).trans (alone address inUstack)
  · intro inCtx
    exact valid.procsUstacks address (within_procs_of_ctx layout oldBound inCtx)
      (within_ustacks_of_ustack layout bound inUstack)
  · intro inStack
    rcases areas.inStack_cases bound inStack with
      ⟨isIdle, _⟩ | ⟨_, inKstack, _⟩
    · exact process isIdle
    · exact kstack_apart_ustack valid bound address inKstack inUstack

end Dispatch

/-! ## The function returns -/

/-- A function has returned the value, as the calling convention has it. -/
structure ReturnsValue (value : BitVec 64) (entry back : Cpu) : Prop extends
    Returned entry back where
  rax : back.regs .rax = value

/-- `spawnret` calls `exit` with the value. -/
theorem spawnret_run (text : Text) {value : BitVec 64} {entry back : Cpu}
    (returns : ReturnsValue value entry back) :
    ((spawnret text).run back).rip = text.exit ∧
      ((spawnret text).run back).regs .rdi = value := by
  refine ⟨rfl, ?_⟩
  rw [← returns.rax]
  rfl

/-- The processor in `usysexit`, at its `int`. -/
def atUsysexitInt (text : Text) (back : Cpu) : Cpu :=
  { (back.set .rdi (back.regs .rax)).set .rax 13 with
    rip := text.usysexitRet }

/-- A user process may use the gate of the system calls. -/
theorem usysexit_run (text : Text) {back : Cpu} (user : back.cpl = 3)
    (installed : back.idt = idt text) :
    (usysexit text).run ((spawnuserret text).run back) =
      deliver tSyscall none (atUsysexitInt text back) := by
  have allowed : back.cpl ≤ (back.idt tSyscall).dpl := by
    rw [user, installed, idt, Function.update_self]
    exact Nat.le_refl 3
  exact if_pos allowed

/-- The system call of `usysexit` ends in `exit` with the value. -/
theorem usysexit_exits (layout : Layout) (text : Text) {value : BitVec 64}
    {entry back : Cpu} (returns : ReturnsValue value entry back)
    (user : back.cpl = 3) (installed : back.idt = idt text) :
    let trapped := (usysexit text).run ((spawnuserret text).run back)
    let called := (alltraps layout text).run
      ((vector text tSyscall).run trapped)
    ((spawnuserret text).run back).rip = text.usysexit ∧
      trapped.rip = text.vectors tSyscall ∧ called.rip = text.trap ∧
      ∀ view fuel thread kernel, back.fsBase = thread.base →
        kernel.nproc ≠ 0 →
        trap view fuel thread called.fsBase kernel
          (tfAt called.mem (called.regs .rdi)) = .ok (.exits value) := by
  intro trapped called
  have isTrapped : trapped = deliver tSyscall none (atUsysexitInt text back) :=
    usysexit_run text user installed
  have entered : called =
      enterTrap layout text tSyscall 0 (atUsysexitInt text back) := by
    rw [enterTrap, show hardwareErr tSyscall 0 = none from rfl, ← isTrapped]
  have atTrap := atTrap_enterTrap layout text (atUsysexitInt text back)
    tSyscall 0
  refine ⟨rfl, ?_, ?_, ?_⟩
  · rw [isTrapped]
    show (back.idt tSyscall).handler = _
    rw [installed, idt, Function.update_self]
    rfl
  · rw [entered]
    exact atTrap.rip
  · intro view fuel thread kernel base begun
    have isBase : called.fsBase = thread.base := by
      rw [entered, enterTrap_fsBase]
      exact base
    rw [isBase, entered, atTrap.tf, ← returns.rax]
    exact callExit_base view thread begun _

/-! ## The call of `exit` -/

/-- The statements executed in a run. -/
def runs (machine : Machine) (steps : List (Event × Machine)) : Nat :=
  count (fun _ event _ => isRun event = true) machine steps

/-- A process that is to be killed is before the message of `trap`. -/
structure Dying (p : Nat) (value : BitVec 64) (machine : Machine) : Prop where
  thread : machine.thread = p
  curproc : machine.kernel.curproc = p
  code : ∃ format args,
    machine.code = .cprintf format args :: Process.exit value p
  masked : machine.kernel.interruptible = false
  state : (machine.kernel.procs p).state = .running

/-- The process has `k` statements of its call behind it: the check, the `cli`,
the store of the state and the store of the value. -/
structure Exiting (p : Nat) (value : BitVec 64) (k : Nat) (machine : Machine) :
    Prop where
  thread : machine.thread = p
  curproc : machine.kernel.curproc = p
  code : machine.code = (Process.exit value p).drop k
  masked : 2 ≤ k → machine.kernel.interruptible = false
  state : (machine.kernel.procs p).state = if k ≤ 2 then .running else .exited
  stored : k = 4 → (machine.kernel.procs p).retval = value

/-- The process has exited with the value. -/
structure Gone (p : Nat) (value : BitVec 64) (machine : Machine) : Prop where
  good : ∃ phase, Good phase machine ∧ ∀ how, phase ≠ .stored p how
  state : (machine.kernel.procs p).state = .exited
  retval : (machine.kernel.procs p).retval = value

section Exit

variable {layout : Layout} {p k : Nat} {value : BitVec 64}
variable {machine machine' : Machine} {event : Event}

/-- Only the message can come next. -/
theorem Dying.step (dying : Dying p value machine)
    (stepped : step layout event machine = some (.ok machine')) :
    event = .run ∧ Exiting p value 0 machine' := by
  rcases dying.code with ⟨format, args, shape⟩
  rcases step_of_code shape rfl stepped with
    ⟨_, interruptible, _⟩ | ⟨rfl, kernel, more, success, rfl⟩
  · rw [dying.masked] at interruptible
    cases interruptible
  · rcases Prod.mk.inj (Except.ok.inj success) with ⟨rfl, rfl⟩
    exact ⟨rfl, dying.thread, dying.curproc, rfl, nofun, dying.state, nofun⟩

theorem Dying.progress (dying : Dying p value machine) (layout : Layout) :
    ∃ machine', Processor.step layout .run machine = some (.ok machine') := by
  rcases dying.code with ⟨format, args, shape⟩
  rw [Processor.step, runStmt_eq shape rfl]
  exact ⟨_, rfl⟩

theorem Exiting.tick (exiting : Exiting p value k machine) (early : k ≤ 1) :
    Exiting p value k
      { machine with kernel := timerTrap machine.kernel } where
  thread := exiting.thread
  curproc := exiting.curproc
  code := exiting.code
  masked late := by omega
  state := by
    have running := exiting.state
    rw [if_pos (by omega)] at running ⊢
    exact @Core.tick_state_of_ne (core machine.kernel) p _ running (by simp)
  stored last := by omega

/-- One step of a process inside its call: a trap, if interrupts are still on,
or the next statement. -/
theorem Exiting.step_cases (exiting : Exiting p value k machine)
    (early : k ≤ 3)
    (stepped : step layout event machine = some (.ok machine')) :
    event = .tick ∧ Exiting p value k machine' ∨
      event = .run ∧ Exiting p value (k + 1) machine' := by
  have shape := exiting.code
  have off := exiting.masked
  have unmasked : machine.kernel.interruptible = true → k ≤ 1 := by
    intro interruptible
    by_contra late
    rw [off (by omega)] at interruptible
    cases interruptible
  obtain rfl | rfl | rfl | rfl : k = 0 ∨ k = 1 ∨ k = 2 ∨ k = 3 := by omega
  all_goals
    rcases step_of_code shape rfl stepped with
      ⟨rfl, interruptible, rfl⟩ | ⟨rfl, kernel, more, success, rfl⟩
    · exact Or.inl ⟨rfl, exiting.tick (unmasked interruptible)⟩
    refine Or.inr ⟨rfl, ?_⟩
  · rw [Stmt.exec, assert_bind_eq_ok] at success
    rcases Prod.mk.inj (Except.ok.inj success.2) with ⟨rfl, rfl⟩
    exact ⟨exiting.thread, exiting.curproc, rfl, by simp, exiting.state,
      by simp⟩
  · rcases Prod.mk.inj (Except.ok.inj success) with ⟨rfl, rfl⟩
    exact ⟨exiting.thread, exiting.curproc, rfl, fun _ => rfl, exiting.state,
      by simp⟩
  · rcases Prod.mk.inj (Except.ok.inj success) with ⟨rfl, rfl⟩
    refine ⟨exiting.thread, exiting.curproc, rfl, fun _ => off le_rfl, ?_,
      by simp⟩
    simp [KernelState.setProc, exiting.curproc]
  · rcases Prod.mk.inj (Except.ok.inj success) with ⟨rfl, rfl⟩
    refine ⟨exiting.thread, exiting.curproc, rfl, fun _ => off (by omega), ?_,
      fun _ => ?_⟩
    · have exited := exiting.state
      simpa [KernelState.setProc, exiting.curproc] using exited
    · simp [KernelState.setProc, exiting.curproc]

/-- The call does not get stuck on its way. -/
theorem Exiting.progress (exiting : Exiting p value k machine) (early : k ≤ 3)
    (layout : Layout) :
    ∃ machine', step layout .run machine = some (.ok machine') := by
  have shape := exiting.code
  obtain rfl | rfl | rfl | rfl : k = 0 ∨ k = 1 ∨ k = 2 ∨ k = 3 := by omega
  · have running : machine.kernel.curRunning = true := by
      have state := exiting.state
      simp [KernelState.curRunning, exiting.curproc, state]
    rw [step, runStmt_eq shape rfl, Stmt.exec, assert_of_holds _ _ running]
    exact ⟨_, rfl⟩
  · rw [step, runStmt_eq shape rfl]
    exact ⟨_, rfl⟩
  · rw [step, runStmt_eq shape rfl]
    exact ⟨_, rfl⟩
  · rw [step, runStmt_eq shape rfl]
    exact ⟨_, rfl⟩

theorem Exiting.gone {phase : Phase} (exiting : Exiting p value 4 machine)
    (good : Good phase machine) : Gone p value machine := by
  have typed := good.typed
  rw [exiting.code] at typed
  cases typed with
  | cprintf typed =>
      rcases left_of_sched _ typed with ⟨how, rfl⟩
      exact ⟨⟨_, good, nofun⟩, exiting.state, exiting.stored rfl⟩

/-- Nothing changes a process that has exited. -/
theorem Gone.step (gone : Gone p value machine)
    (stepped : step layout event machine = some (.ok machine')) :
    Gone p value machine' := by
  rcases gone.good with ⟨phase, good, complete⟩
  rcases (good.step stepped).2 machine' rfl with ⟨phase', good', next⟩
  have kept : machine'.kernel.procs p = machine.kernel.procs p ∧
      ∀ how, phase' ≠ .stored p how := by
    generalize after : core machine'.kernel = core' at next
    have procs' : machine'.kernel.procs = core'.procs := by
      rw [← after]
      rfl
    rw [procs']
    cases next with
    | tick unmasked =>
        refine ⟨?_, complete⟩
        have exited : (core machine.kernel).state p = .exited := gone.state
        exact Core.tick_procs_of_not_sleeping (by rw [exited]; nofun)
    | move _ move =>
        exact good.fits.holds.alone move (Or.inr gone.state) complete
  refine ⟨⟨phase', good', kept.2⟩, ?_, ?_⟩
  · rw [kept.1]
    exact gone.state
  · rw [kept.1]
    exact gone.retval

/-- How the call stands after the given number of statements, of which the first
`lead` come before it. -/
inductive ExitRun (p : Nat) (value : BitVec 64) (lead number : Nat)
    (machine : Machine) : Prop where
  | dying (early : number < lead) (dying : Dying p value machine)
  | exiting {k : Nat} (early : k < 4) (counted : number = lead + k)
      (exiting : Exiting p value k machine)
  | gone (late : lead + 4 ≤ number) (gone : Gone p value machine)

theorem ExitRun.thread {lead number : Nat}
    (run : ExitRun p value lead number machine) (early : number < lead + 4) :
    machine.thread = p := by
  cases run with
  | dying _ dying => exact dying.thread
  | exiting _ _ exiting => exact exiting.thread
  | gone late => omega

/-- The call does not get stuck before the process has exited. -/
theorem ExitRun.progress {lead number : Nat}
    (run : ExitRun p value lead number machine) (early : number < lead + 4)
    (layout : Layout) :
    ∃ machine', Processor.step layout .run machine = some (.ok machine') := by
  cases run with
  | dying _ dying => exact dying.progress layout
  | exiting early _ exiting => exact exiting.progress (by omega) layout
  | gone late => omega

/-- One step of the call, or after it. -/
theorem ExitRun.step {phase : Phase} {lead number : Nat} (short : lead ≤ 1)
    (run : ExitRun p value lead number machine) (good : Good phase machine')
    (stepped : step layout event machine = some (.ok machine')) :
    ExitRun p value lead (number + if isRun event = true then 1 else 0)
      machine' := by
  cases run with
  | dying early dying =>
      rcases dying.step stepped with ⟨rfl, exiting⟩
      refine .exiting (by decide) ?_ exiting
      show number + 1 = _
      omega
  | @exiting k early counted exiting =>
      rcases exiting.step_cases (by omega) stepped with
        ⟨rfl, exiting'⟩ | ⟨rfl, exiting'⟩
      · exact .exiting early counted exiting'
      · have next : number + 1 = lead + (k + 1) := by omega
        by_cases more : k + 1 < 4
        · exact .exiting more next exiting'
        · -- the step was the store of the value
          obtain rfl : k = 3 := by omega
          exact .gone next.ge (exiting'.gone good)
  | gone late gone =>
      exact .gone (late.trans (Nat.le_add_right _ _)) (gone.step stepped)

/-- A whole run from inside the call. -/
theorem ExitRun.path {phase : Phase} {lead number : Nat} (short : lead ≤ 1)
    {steps : List (Event × Machine)} {last : Machine}
    (run : ExitRun p value lead number machine) (good : Good phase machine)
    (path : Path (Processor.step layout) machine steps last) :
    ExitRun p value lead (number + runs machine steps) last := by
  induction path generalizing phase number with
  | nil machine => exact run
  | @cons first second last event steps head rest induction =>
      rcases (good.step head).2 second rfl with ⟨phase', good', _⟩
      have split : number + runs first ((event, second) :: steps) =
          number + (if isRun event = true then 1 else 0) +
            runs second steps := (Nat.add_assoc _ _ _).symm
      rw [split]
      exact induction (run.step short good' head) good'

/-- The value with which an operation ends the process that performs it. -/
def exitValue : Op → Option (BitVec 64)
  | .exit retval => some retval
  | .fault _ => some killed
  | _ => none

/-- The statements that an operation executes before it calls `exit`. -/
def lead : Op → Nat
  | .fault _ => 1
  | _ => 0

theorem lead_le (op : Op) : lead op ≤ 1 := by
  cases op <;> simp [lead]

/-- The state right after a call of `exit`, or a fault. -/
theorem exitRun_of_start {phase : Phase} {op : Op} (good : Good phase machine)
    (ends : exitValue op = some value)
    (called : step layout (.call op) machine = some (.ok machine')) :
    ExitRun machine.thread value (lead op) 0 machine' := by
  rcases step_call called with ⟨resting, _, rfl⟩
  have current := curproc_of_done good resting
  have fits := fits_own good resting
  have running : (machine.kernel.procs machine.thread).state = .running := by
    rw [← current]
    exact (fits.holds.running _).mpr (Or.inr rfl)
  rw [← current] at running ⊢
  cases op with
  | exit retval =>
      rcases Option.some.inj ends with rfl
      exact @ExitRun.exiting _ _ _ _ _ 0 (by decide) rfl
        ⟨rfl, rfl, rfl, nofun, running, nofun⟩
  | fault cause =>
      rcases Option.some.inj ends with rfl
      exact .dying Nat.one_pos ⟨rfl, rfl, ⟨_, _, rfl⟩, rfl, running⟩
  | _ => cases ends

/-- A call of `exit`, or a fault, and any run after it. -/
theorem exitRun_of_call {op : Op} {steps : List (Event × Machine)}
    {last : Machine} (started : Started layout machine)
    (ends : exitValue op = some value)
    (called : step layout (.call op) machine = some (.ok machine'))
    (path : Path (step layout) machine' steps last) :
    ExitRun machine.thread value (lead op) (runs machine' steps) last := by
  rcases good_of_reachable started.reachable with ⟨phase, good⟩
  rcases (good.step called).2 machine' rfl with ⟨phase', good', _⟩
  have run := (exitRun_of_start good ends called).path (lead_le op) good' path
  rwa [Nat.zero_add] at run

end Exit

/-! ## From creation to exit -/

/--
The first dispatch of a process that `spawn` has created enters its function in
kernel mode, with its argument, on its kernel stack, and with `spawnret` to
return to.  That of a process that `spawnuser` has created goes through `trapret`
and `iretq` and enters its function in user mode, with interrupts on, its
argument and no other register set, on its user stack, where it finds
`spawnuserret`, provided that nobody else has written to that stack.  A value
that the function returns is passed on to `exit`, and the process becomes
`EXITED` with that value.
-/
theorem process_life {layout : Layout} (bootable : Bootable layout)
    {areas : Stacks layout} (text : Text) {call : Call} {caller : Machine}
    {created before back : System}
    (isCreated : Created areas call caller created)
    (away : Away areas caller.kernel.nproc created before)
    (enters : Step areas before back)
    (dispatched : back.machine.thread = caller.kernel.nproc)
    (kernelMode : before.cpu.cpl = 0) :
    let p := caller.kernel.nproc
    (∀ desc, call = .spawn desc →
      EntersKernel layout desc (created.machine.kernel.slot p).kstack
        back.cpu ∧
      ∀ value ret, ReturnsValue value back.cpu ret →
        ret.rip = layout.spawnret ∧
        ((spawnret text).run ret).rip = text.exit ∧
        ((spawnret text).run ret).regs .rdi = value) ∧
    (∀ desc, call = .spawnuser desc →
      let user := trapret.run back.cpu
      back.cpu.rip = layout.trapret ∧
      EntersUser layout desc (ustackAddr layout p) user ∧
      ((∀ address, Within (ustackAddr layout p) 4096 address →
          before.cpu.mem address = created.cpu.mem address) →
        load64 user.mem (user.regs .rsp) = layout.spawnuserret) ∧
      ∀ value ret, ReturnsValue value user ret → ret.cpl = 3 →
        ret.idt = idt text →
        let trapped := (usysexit text).run ((spawnuserret text).run ret)
        let called := (alltraps layout text).run
          ((vector text tSyscall).run trapped)
        ((spawnuserret text).run ret).rip = text.usysexit ∧
        trapped.rip = text.vectors tSyscall ∧ called.rip = text.trap ∧
        ∀ view fuel thread kernel, ret.fsBase = thread.base →
          kernel.nproc ≠ 0 →
          trap view fuel thread called.fsBase kernel
            (tfAt called.mem (called.regs .rdi)) = .ok (.exits value)) ∧
    ∀ value machine exiting steps last, Started layout machine →
      machine.thread = p →
      step layout (.call (.exit value)) machine = some (.ok exiting) →
      Path (step layout) exiting steps last →
        (runs exiting steps < 4 →
          ∃ next, step layout .run last = some (.ok next)) ∧
        (4 ≤ runs exiting steps →
          (last.kernel.procs p).state = .exited ∧
          (last.kernel.procs p).retval = value) := by
  intro p
  have valid := bootable.valid
  have isOff := isCreated.off.run away
  have process := isCreated.positive
  refine ⟨?_, ?_, ?_⟩
  · intro desc isSpawn
    have entry := isCreated.kernelEntry valid isSpawn
    have enter := entersKernel isOff enters dispatched process kernelMode entry
    rw [isCreated.kstack]
    refine ⟨enter, ?_⟩
    intro value ret returns
    exact ⟨returns.rip.trans enter.ret, spawnret_run text returns⟩
  · intro desc isSpawnuser user
    have entry := isCreated.userEntry valid bootable.room isSpawnuser
    rcases entersTrapret isOff enters dispatched process entry with
      ⟨rip, enter⟩
    refine ⟨rip, enter, ?_, ?_⟩
    · intro alone
      have top : ustackAddr layout p + ustackSz - 8 =
          ustackAddr layout p + BitVec.ofNat 64 4088 := by
        bv_omega
      rw [enter.rsp, top]
      exact spawnuserret_on_ustack isOff enters dispatched process valid
        isCreated.ran.1 entry alone
    · intro value ret returns userMode installed
      exact usysexit_exits layout text returns userMode installed
  · intro value machine exiting steps last started thread called path
    have run := @exitRun_of_call _ value _ _ (.exit value) _ _ started rfl
      called path
    rw [thread, show lead (.exit value) = 0 from rfl] at run
    refine ⟨fun early => run.progress (by omega) layout, fun late => ?_⟩
    cases run with
    | dying early => cases early
    | exiting early counted => omega
    | gone _ gone => exact ⟨gone.state, gone.retval⟩

/-! ## A sample process -/

theorem sampleStacks_idleUstacks :
    Apart sampleStacks.idle sampleStacks.idleSize sampleLayout.ustacks 32768 :=
  @apart_of_offsets 0xFFFFFFFF80008000 0 0x102000 32768 32768 (by decide)
    (by decide)

/-- The first process is created and dispatched. -/
theorem sample_created {call : Call} (prioValid : PrioValid call.desc) :
    ∃ caller created before back, caller.kernel.nproc = 1 ∧
      Created sampleStacks call caller created ∧
      Away sampleStacks 1 created before ∧ Step sampleStacks before back ∧
      back.machine.thread = 1 ∧ before.cpu.cpl = 0 := by
  have bootable := sampleLayout_bootable
  rcases sample_main with ⟨kernel, booted⟩
  have initial := initial_of_main booted
  have room : kernel.nproc < maxProc := by
    rw [initial.nproc]
    decide
  rcases spaces_call bootable.valid (main_spaces bootable booted) room prioValid
    with ⟨kernel', ran, _, _⟩
  have reachable : SharedReachable sampleStacks
      ⟨start kernel, { sampleCpu with mem := kernel.mem }⟩ :=
    ⟨_, _, _, kernel, _, booted, rfl, .refl⟩
  rcases exists_calls bootable sampleStacks_idleUstacks room reachable ran with
    ⟨cpu, calls⟩
  have isCreated := created_of_calls bootable sampleStacks_idleUstacks calls
  -- the idle process switches to it
  rcases path_first initial (entered_of_execAll room ran) with
    ⟨steps, sent, machine, path, threads, onIdle, pair, sends, thread, _⟩
  have idles (entry : Event × Machine) (member : entry ∈ steps) :
      entry.2.thread ≠ 1 := by
    rw [threads entry member]
    decide
  rcases (sound_of_reachable isCreated.reachable).exists_run
    (fun machine => machine.thread ≠ 1) (show 0 ≠ 1 by decide) path idles with
    ⟨cpu₁, run⟩
  rcases exists_switching pair sends cpu₁ with
    ⟨before, kernelMode, _, loads, enters⟩
  refine ⟨start kernel, _, ⟨sent, before⟩, _, initial.nproc, isCreated, ?_,
    enters, thread, kernelMode⟩
  refine run.tail ⟨loads, ?_⟩
  show sent.thread ≠ 1
  rw [onIdle]
  decide

/-- The first dispatch of a user process. -/
theorem process_life_user :
    ∃ caller created before back,
      Created sampleStacks (.spawnuser sampleDesc) caller created ∧
      Away sampleStacks 1 created before ∧ Step sampleStacks before back ∧
      EntersUser sampleLayout sampleDesc (ustackAddr sampleLayout 1)
        (trapret.run back.cpu) := by
  rcases @sample_created (.spawnuser sampleDesc) sampleDesc_prioValid with
    ⟨caller, created, before, back, one, isCreated, away, enters, dispatched,
      kernelMode⟩
  rw [← one] at away dispatched ⊢
  have life := process_life sampleLayout_bootable sampleText isCreated away
    enters dispatched kernelMode
  exact ⟨caller, created, before, back, isCreated, away, enters,
    (life.2.1 sampleDesc rfl).2.1⟩

end Rt64.Kernel.ProcessLife
