import Rt64.Kernel.ProcessLife

/-!
# What a user process can make the kernel do

A user process enters the kernel with a system call or an exception.  The handler
trusts it in two things.  It follows the argument of `sys_print`, which is not
checked, so a process can make the kernel read an address that is not mapped.  And
it reads `curproc` through `fs`, which a process can load with its own data segment,
so that the variable is looked for below the address 0.  With these exceptions an
entry ends with a return to the process or with its exit.
-/

namespace Rt64.Kernel.TrapSafety

open Rt64.Lib.ByteMemory
open Rt64.Lib.Transition
open Rt64.Lib.X64
open Rt64.Include.Defs
open Rt64.Include.Access
open Rt64.Kernel.Console
open Rt64.Kernel.PageTree
open Rt64.Kernel.PagingRange
open Rt64.Kernel.Process
open Rt64.Kernel.Spawn
open Rt64.Kernel.Isolation
open Rt64.Kernel.Processor
open Rt64.Kernel.Rounds
open Rt64.Kernel.Scheduler
open Rt64.Kernel.Threads
open Rt64.Kernel.Trap
open Rt64.Kernel.Contracts
open Rt64.Kernel.Main
open Rt64.Kernel.ProcessTable
open Rt64.Kernel.HardwareContext
open Rt64.Kernel.ProcessLife

/-! ## What the kernel can read -/

/-- The byte at an address in the address space that is loaded; `contents` is
what lies behind the physical addresses. -/
def kernelView (contents : Nat → Byte) (kernel : KernelState)
    (address : Addr) : Option Byte :=
  if Canonical address then
    (translate kernel.mem 4 (p2v kernel.image.cr3) address).map
      fun translation => contents translation.target
  else none

section View

variable {layout : Layout} (bootable : Bootable layout) {machine : Machine}
variable (started : Started layout machine) (resting : machine.code = [])
variable (process : machine.thread ≠ 0)
include started resting process

/-- A process runs in one of the two address spaces. -/
theorem loaded_root :
    p2v machine.kernel.image.cr3 = machine.kernel.image.kpml4 ∨
      p2v machine.kernel.image.cr3 = machine.kernel.image.upml4 := by
  rcases Started.table started with ⟨phase, good, upholds⟩
  have always := upholds.always (tableRules layout) good
  have current := curproc_of_done good resting
  have loaded := always.2 process current
  have live : Live machine.kernel machine.thread :=
    current ▸ good.fits.holds.current_used
  rw [loaded.cr3, p2v_v2p]
  exact always.1.ptRoot machine.thread live

include bootable

/-- In either of them the kernel reads the devices and the direct map. -/
theorem kernelView_eq (contents : Nat → Byte) (address : Addr) :
    kernelView contents machine.kernel address =
      if InRange devbase (16 * pgSz2M) address then
        some (contents (0xFE000000 + (address.toNat - devbase.toNat)))
      else if InRange kernbase maxPhysMem address then
        some (contents (address.toNat - kernbase.toNat))
      else none := by
  rcases Started.spaces bootable started resting with ⟨user, spaces⟩
  by_cases canonical : Canonical address
  · have target :
        (translate machine.kernel.mem 4 (p2v machine.kernel.image.cr3)
          address).map Translation.target =
        (translate machine.kernel.mem 4 machine.kernel.image.kpml4
          address).map Translation.target := by
      rcases loaded_root started resting process with kernel | user
      · rw [kernel]
      · rw [user]
        exact Spaces.same_target spaces canonical
    have own := Spaces.translate_kernel spaces canonical
    rw [kernelView, if_pos canonical]
    refine (Option.map_map contents Translation.target _).symm.trans ?_
    rw [target, KernelState.mem, own]
    split
    · rfl
    split
    · rfl
    · rfl
  · have high (base sz : BitVec 64) (above : devbase.toNat ≤ base.toNat) :
        ¬ InRange base sz address := by
      have devices : devbase.toNat = 0xFFFFFFFF40000000 := by decide
      rintro ⟨low, _⟩
      exact canonical (Or.inr (by omega))
    rw [kernelView, if_neg canonical, if_neg (high _ _ le_rfl),
      if_neg (high _ _ (by decide))]

/-- Below the address 0 nothing is mapped. -/
theorem kernelView_below_zero (contents : Nat → Byte) (thread : Trap.Thread) :
    kernelView contents machine.kernel (0 - thread.offset) = none := by
  have outside : ¬ InRange devbase (16 * pgSz2M) (0 - thread.offset) ∧
      ¬ InRange kernbase maxPhysMem (0 - thread.offset) := by
    rcases thread.offset_cases with offset | offset | offset <;> rw [offset] <;>
      decide
  rw [kernelView_eq bootable started resting process, if_neg outside.1,
    if_neg outside.2]

end View

/-! ## The base of `fs` -/

/--
`mov` of a selector to `fs` in user mode.  Of the descriptors that `trapinit` has
made it may load the one of the user data segment, whose base is 0, and it may
load null; any other selector is a general protection fault.
-/
def loadFs (selector : BitVec 16) (cpu : Cpu) : Option Cpu :=
  -- The low two bits are the privilege asked for; the next one would name a local
  -- table, and there is none.
  let descriptor := selector.toNat / 4
  if descriptor = 0 ∨ descriptor = 2 * segUdata.toNat then
    some { cpu with fsBase := 0 }
  else none

/-- The bases that user code can have in `fs`. -/
def UserBase (thread : Trap.Thread) (cpu : Cpu) : Prop :=
  cpu.fsBase = thread.base ∨ cpu.fsBase = 0

theorem UserBase.loadFs {thread : Trap.Thread} {selector : BitVec 16}
    {cpu cpu' : Cpu} (loaded : loadFs selector cpu = some cpu') :
    UserBase thread cpu' := by
  rw [TrapSafety.loadFs] at loaded
  split at loaded
  · rw [← Option.some.inj loaded]
    exact Or.inr rfl
  · cases loaded

/-! ## Strings -/

/-- The characters from `s` on end before the first address that cannot be
read. -/
def Terminated (view : View) (s : Addr) : Prop :=
  ∃ text, StringAt view s text

/-- A printed string is null, or it ends. -/
theorem cprintfString_returns {view : View} {s : Addr}
    (readable : s = 0 ∨ Terminated view s) :
    ∃ enough, ∀ fuel, enough ≤ fuel →
      ∃ chars, cprintfString view fuel s = .ok chars := by
  by_cases null : s = 0
  · exact ⟨0, fun fuel _ => ⟨nullText, if_pos null⟩⟩
  · rcases readable.resolve_left null with ⟨text, stored⟩
    refine ⟨text.length + 1, fun fuel enough => ⟨text, ?_⟩⟩
    rw [cprintfString, if_neg null, mapError_eq_ok]
    exact putString_eq stored enough

theorem readable_of_cprintfString {view : View} {fuel : Nat} {s : Addr}
    {chars : List Byte} (printed : cprintfString view fuel s = .ok chars) :
    s = 0 ∨ Terminated view s := by
  rw [cprintfString] at printed
  split at printed
  · rename_i null
    exact Or.inl null
  · exact Or.inr ⟨chars, stringAt_of_putString (mapError_eq_ok.mp printed)⟩

/-! ## The handler -/

/-- What a process has to keep to when it enters the kernel with the vector `n`:
if the entry ends in `exit`, `fs` still has its base, and a string to print is null
or ends before the first address that is not mapped. -/
structure Manageable (view : Addr → Option Byte) (thread : Trap.Thread) (n : Nat)
    (cpu : Cpu) : Prop where
  base : (n = tSyscall → cpu.regs .rax = sysExitNum) → cpu.fsBase = thread.base
  readable : n = tSyscall → cpu.regs .rax = sysPrintNum →
    cpu.regs .rdi = 0 ∨ Terminated view (cpu.regs .rdi)

section Handler

variable {view : Addr → Option Byte} {thread : Trap.Thread} {cpu : Cpu} {n : Nat}
variable {kernel : KernelState}

/-- Every system call returns or exits, unless it prints what cannot be read. -/
theorem syscall_served {num a0 : BitVec 64} (a1 a2 a3 a4 a5 : BitVec 64)
    (readable : num = sysPrintNum → a0 = 0 ∨ Terminated view a0) :
    (num ≠ sysExitNum ∧ ∃ value enough, ∀ fuel, enough ≤ fuel →
      syscall view fuel num a0 a1 a2 a3 a4 a5 = .ok (.returns value)) ∨
    num = sysExitNum ∧ ∀ fuel,
      syscall view fuel num a0 a1 a2 a3 a4 a5 = .ok (.exits a0) := by
  by_cases isPrint : num = sysPrintNum
  · rcases cprintfString_returns (readable isPrint) with ⟨enough, returns⟩
    refine Or.inl ⟨by rw [isPrint]; decide, 0, enough, ?_⟩
    intro fuel isEnough
    rcases returns fuel isEnough with ⟨chars, printed⟩
    rw [syscall, if_pos isPrint, sysPrint, printed]
    rfl
  by_cases isExit : num = sysExitNum
  · refine Or.inr ⟨isExit, ?_⟩
    intro fuel
    rw [syscall, if_neg isPrint, if_pos isExit]
    rfl
  · refine Or.inl ⟨isExit, -1, 0, ?_⟩
    intro fuel _
    rw [syscall, if_neg isPrint, if_neg isExit]

/-- With a base of its own in `fs`, a process makes the kernel fault. -/
theorem curprocNull_faults (other : cpu.fsBase ≠ thread.base)
    (unmapped : view (cpu.fsBase - thread.offset) = none) :
    curprocNull view thread cpu.fsBase kernel = .error trapPanic := by
  have faults : fetchWord view (cpu.fsBase - thread.offset) 8 =
      .error (.fault (cpu.fsBase - thread.offset)) := by
    rw [fetchWord, fetch, unmapped]
    rfl
  rw [curprocNull, if_neg other, faults]

/-- The vectors of exceptions and of system calls are not the timer's. -/
theorem trapno_ne {m : Nat} (err : BitVec 64) (action : n = tSyscall ∨ n < 32)
    (small : m < 256) (different : n ≠ m) :
    Trap.frameOf cpu n err .trapno ≠ BitVec.ofNat 64 m := by
  have isSyscall : tSyscall = 64 := rfl
  intro same
  apply different
  have numbers := congrArg BitVec.toNat same
  have number : (Trap.frameOf cpu n err .trapno).toNat = n % 2 ^ 64 :=
    BitVec.toNat_ofNat n 64
  rw [number, BitVec.toNat_ofNat] at numbers
  omega

/-- The selector of a process in user mode has a privilege level. -/
theorem cs_user (user : cpu.cpl = 3) (n : Nat) (err : BitVec 64) :
    Trap.frameOf cpu n err .cs &&& 3 ≠ 0 := by
  intro kernelMode
  have low : (cpu.cs.setWidth 64 &&& 3#64).setWidth 16 = cpu.cs &&& 3#16 := by
    apply BitVec.eq_of_getLsbD_eq
    intro i bound
    simp [bound]
  have zero : cpu.cpl = 0 := by
    show (cpu.cs &&& 3#16).toNat = 0
    rw [← low, show cpu.cs.setWidth 64 &&& 3#64 = 0 from kernelMode]
    rfl
  omega

variable (action : n = tSyscall ∨ n < 32) (err : BitVec 64)
include action

/-- What `trap` comes to for a system call and for an exception. -/
theorem trap_user (fuel : Nat) (user : cpu.cpl = 3) :
    trap view fuel thread cpu.fsBase kernel (Trap.frameOf cpu n err) =
      if n = tSyscall then do
        match ← syscall view fuel (cpu.regs .rax) (cpu.regs .rdi)
          (cpu.regs .rsi) (cpu.regs .rdx) (cpu.regs .rcx) (cpu.regs .r8)
          (cpu.regs .r9) with
        | .returns value =>
            return .returns kernel
              (Function.update (Trap.frameOf cpu n err) .rax value)
        | .exits retval => callExit view thread cpu.fsBase kernel retval
      else callExit view thread cpu.fsBase kernel killed := by
  have notTimer := @trapno_ne cpu n (tIrq0 + irqTimer) err action (by decide) (by
    show n ≠ 32
    have isSyscall : tSyscall = 64 := rfl
    omega)
  rw [trap, if_neg notTimer]
  by_cases isSyscall : n = tSyscall
  · have number : Trap.frameOf cpu n err .trapno = BitVec.ofNat 64 tSyscall :=
      congrArg (BitVec.ofNat 64) isSyscall
    rw [if_pos number, if_pos isSyscall]
    rfl
  · rw [if_neg (trapno_ne err action (by decide) isSyscall), if_neg isSyscall,
      beq_false_of_ne (cs_user user n err)]
    simp only [Bool.or_false, callExit]
    cases curprocNull view thread cpu.fsBase kernel with
    | error halt => rfl
    | ok isNull => cases isNull <;> rfl

/-- Every entry from user mode that is manageable returns or exits. -/
theorem trap_handled (user : cpu.cpl = 3) (begun : kernel.nproc ≠ 0)
    (manageable : Manageable view thread n cpu) :
    (∃ value enough, ∀ fuel, enough ≤ fuel →
      trap view fuel thread cpu.fsBase kernel (Trap.frameOf cpu n err) =
        .ok (.returns kernel
          (Function.update (Trap.frameOf cpu n err) .rax value))) ∨
    ∃ retval, (n ≠ tSyscall → retval = killed) ∧ ∀ fuel,
      trap view fuel thread cpu.fsBase kernel (Trap.frameOf cpu n err) =
        .ok (.exits retval) := by
  have calls (retval : BitVec 64) (base : cpu.fsBase = thread.base) :
      callExit view thread cpu.fsBase kernel retval = .ok (.exits retval) :=
    base ▸ callExit_base view thread begun retval
  simp only [trap_user action err _ user]
  by_cases isSyscall : n = tSyscall
  · simp only [if_pos isSyscall]
    rcases syscall_served (cpu.regs .rsi) (cpu.regs .rdx) (cpu.regs .rcx)
      (cpu.regs .r8) (cpu.regs .r9) (manageable.readable isSyscall) with
      ⟨_, value, enough, returns⟩ | ⟨isExit, exits⟩
    · refine Or.inl ⟨value, enough, ?_⟩
      intro fuel isEnough
      rw [returns fuel isEnough]
      rfl
    · refine Or.inr ⟨cpu.regs .rdi, fun notCall => absurd isSyscall notCall, ?_⟩
      intro fuel
      rw [exits fuel]
      exact calls _ (manageable.base fun _ => isExit)
  · simp only [if_neg isSyscall]
    exact Or.inr ⟨killed, fun _ => rfl, fun _ =>
      calls killed (manageable.base fun isCall => absurd isCall isSyscall)⟩

/-- And no other one does. -/
theorem manageable_of_handled {fuel : Nat} {handled : Handled}
    (user : cpu.cpl = 3)
    (unmapped : cpu.fsBase ≠ thread.base →
      view (cpu.fsBase - thread.offset) = none)
    (returned : trap view fuel thread cpu.fsBase kernel
      (Trap.frameOf cpu n err) = .ok handled) :
    Manageable view thread n cpu := by
  rw [trap_user action err fuel user] at returned
  have faults (retval : BitVec 64) (other : cpu.fsBase ≠ thread.base) :
      callExit view thread cpu.fsBase kernel retval = .error trapPanic := by
    rw [callExit, curprocNull_faults other (unmapped other)]
    rfl
  constructor
  · intro ends
    by_contra other
    by_cases isSyscall : n = tSyscall
    · rw [if_pos isSyscall, syscall, if_neg (by rw [ends isSyscall]; decide),
        if_pos (ends isSyscall)] at returned
      have failed : callExit view thread cpu.fsBase kernel (cpu.regs .rdi) =
        .ok handled := returned
      rw [faults _ other] at failed
      cases failed
    · rw [if_neg isSyscall, faults _ other] at returned
      cases returned
  · intro isSyscall isPrint
    rw [if_pos isSyscall, syscall, if_pos isPrint, sysPrint] at returned
    rw [bind_eq_ok] at returned
    rcases returned with ⟨served, printed, _⟩
    rw [bind_eq_ok] at printed
    rcases printed with ⟨chars, readable, _⟩
    exact readable_of_cprintfString readable

end Handler

/-! ## The machine -/

/-- What `trap` prints about a fault, from the frame, `curcpu->index` and `cr2`. -/
def causeOf (tf : TrapField → BitVec 64) (index cr2 : BitVec 64) : Fault where
  trapno := tf .trapno
  cpu := index
  rip := tf .rip
  cr2 := cr2

/-- The call of `exit` in a trap: exceptions come through interrupt gates. -/
def exitOp (n : Nat) (retval : BitVec 64) (cause : Fault) : Op :=
  if n = tSyscall then .exit retval else .fault cause

theorem exitValue_exitOp {n : Nat} {retval : BitVec 64} (cause : Fault)
    (isKilled : n ≠ tSyscall → retval = killed) :
    exitValue (exitOp n retval cause) = some retval := by
  by_cases isSyscall : n = tSyscall
  · rw [exitOp, if_pos isSyscall]
    rfl
  · rw [exitOp, if_neg isSyscall, isKilled isSyscall]
    rfl

section Machine

variable {layout : Layout} {machine machine' : Machine} {event : Event}

/-- Only the process on the processor can exit. -/
theorem exited_before {phase : Phase} {q : Nat} (good : Good phase machine)
    (stepped : step layout event machine = some (.ok machine'))
    (other : q ≠ machine.thread)
    (exited : (machine'.kernel.procs q).state = .exited) :
    (machine.kernel.procs q).state = .exited := by
  rcases (good.step stepped).2 machine' rfl with ⟨phase', good', next⟩
  rcases (good.safeStep good' next).changes q with same | change
  · exact same.symm.trans exited
  · generalize (machine.kernel.procs q).state = state at change ⊢
    rw [exited] at change
    cases change with
    | leave notTick itself process which => exact absurd itself.symm other

/-- Until the process has exited, no other one does. -/
theorem exited_before_path {phase : Phase} {p lead number : Nat}
    {value : BitVec 64} {steps : List (Event × Machine)} {last : Machine}
    (short : lead ≤ 1) (run : ExitRun p value lead number machine)
    (good : Good phase machine) (path : Path (step layout) machine steps last)
    (early : number + runs machine steps < lead + 4) {q : Nat} (other : q ≠ p)
    (exited : (last.kernel.procs q).state = .exited) :
    (machine.kernel.procs q).state = .exited := by
  induction path generalizing phase number with
  | nil machine => exact exited
  | @cons first second last event steps head rest induction =>
      rcases (good.step head).2 second rfl with ⟨phase', good', _⟩
      have split : number + runs first ((event, second) :: steps) =
          number + (if isRun event = true then 1 else 0) +
            runs second steps := (Nat.add_assoc _ _ _).symm
      rw [split] at early
      have between := induction (run.step short good' head) good' early exited
      have thread := run.thread (by omega)
      exact exited_before good head (thread ▸ other) between

theorem exitOp_step (started : Started layout machine)
    (resting : machine.code = []) (process : machine.thread ≠ 0) (n : Nat)
    (retval : BitVec 64) (cause : Fault) :
    ∃ exiting, step layout (.call (exitOp n retval cause)) machine =
      some (.ok exiting) := by
  rcases Started.table started with ⟨phase, good, upholds⟩
  have table := (upholds.always (tableRules layout) good).1
  have current := curproc_of_done good resting
  have allowed : (exitOp n retval cause).allowed machine.kernel = true := by
    have different : machine.kernel.curproc ≠ machine.kernel.idleproc := by
      rw [current, table.idleproc]
      exact process
    unfold exitOp
    split <;> exact bne_iff_ne.mpr different
  rw [step, resting, allowed]
  exact ⟨_, rfl⟩

/-- A call of `exit` does not fail in the scheduler, and after its four steps the
process, and none besides it, is `EXITED`. -/
theorem exits_alone {op : Op} {retval : BitVec 64} {exiting last : Machine}
    {steps : List (Event × Machine)} (started : Started layout machine)
    (ends : exitValue op = some retval)
    (called : step layout (.call op) machine = some (.ok exiting))
    (path : Path (step layout) exiting steps last) :
    (∀ event site failure,
      step layout event last = some (.error (.panic site failure)) →
        site ∉ schedulerSites) ∧
    (runs exiting steps < lead op + 4 →
      (∃ next, step layout .run last = some (.ok next)) ∧
      ∀ event next q, step layout event last = some (.ok next) →
        q ≠ machine.thread → (next.kernel.procs q).state = .exited →
          (machine.kernel.procs q).state = .exited) ∧
    (lead op + 4 ≤ runs exiting steps →
      (last.kernel.procs machine.thread).state = .exited ∧
      (last.kernel.procs machine.thread).retval = retval) := by
  have run := exitRun_of_call started ends called path
  rcases good_of_reachable started.reachable with ⟨phase, good⟩
  rcases (good.step called).2 exiting rfl with ⟨phase', good', _⟩
  have first := exitRun_of_start good ends called
  rcases good_of_reachable
    ((started.path (.single called)).path path).reachable with
    ⟨phase'', good''⟩
  refine ⟨?_, ?_, ?_⟩
  · intro event site failure failed
    exact (good''.step failed).1 _ rfl
  · intro early
    refine ⟨run.progress early layout, ?_⟩
    intro event next q stepped other exited
    -- backwards: the last step, the run so far, the call
    have before := exited_before good'' stepped (run.thread early ▸ other) exited
    have atCall := exited_before_path (lead_le op) first good' path (by omega)
      other before
    exact exited_before good called other atCall
  · intro late
    cases run with
    | dying early => omega
    | exiting early counted => omega
    | gone _ gone => exact ⟨gone.state, gone.retval⟩

end Machine

/--
Whatever a process does in user mode, a system call with any number and any
arguments or an exception, with either base in `fs`: `trap` returns to the process
with a value in `rax`, or it calls `exit`, which does not fail and makes this
process and no other one `EXITED`, exactly if the entry is manageable.  The kernel's
own memory is mapped all the time.
-/
theorem user_trap_handled {layout : Layout} (bootable : Bootable layout)
    {machine : Machine} (started : Started layout machine)
    (resting : machine.code = []) (process : machine.thread ≠ 0)
    (contents : Nat → Byte) (text : Text) (thread : Trap.Thread) {cpu : Cpu}
    (user : cpu.cpl = 3) (base : UserBase thread cpu) {n : Nat}
    (action : n = tSyscall ∨ n < 32) (code index cr2 : BitVec 64) :
    let kernel := machine.kernel
    let p := machine.thread
    let view := kernelView contents kernel
    let entry := enterTrap layout text n code cpu
    let frame := entry.regs .rdi
    let tf := tfAt entry.mem frame
    (∀ address, InRange kernbase maxPhysMem address → view address ≠ none) ∧
    (((∃ value enough,
      (∀ fuel, enough ≤ fuel →
        trap view fuel thread entry.fsBase kernel tf =
          .ok (.returns kernel (Function.update tf .rax value))) ∧
      ∀ back, Returned entry back →
        tfAt back.mem frame = Function.update tf .rax value →
        back.rip = layout.trapret ∧
          SameContext (trapret.run back) (cpu.set .rax value)) ∨
    ∃ retval exiting,
      let op := exitOp n retval (causeOf tf index cr2)
      (∀ fuel, trap view fuel thread entry.fsBase kernel tf =
        .ok (.exits retval)) ∧
      step layout (.call op) machine = some (.ok exiting) ∧
      ∀ steps last, Path (step layout) exiting steps last →
        (∀ event site failure,
          step layout event last = some (.error (.panic site failure)) →
            site ∉ schedulerSites) ∧
        (runs exiting steps < lead op + 4 →
          (∃ next, step layout .run last = some (.ok next)) ∧
          ∀ event next q, step layout event last = some (.ok next) → q ≠ p →
            (next.kernel.procs q).state = .exited →
            (kernel.procs q).state = .exited) ∧
        (lead op + 4 ≤ runs exiting steps →
          (last.kernel.procs p).state = .exited ∧
          (last.kernel.procs p).retval = retval)) ↔
      Manageable view thread n cpu) := by
  intro kernel p view entry frame tf
  have atTrap := atTrap_enterTrap layout text cpu n code
  have isFrame : tf = Trap.frameOf cpu n ((hardwareErr n code).getD 0) :=
    atTrap.tf
  have isBase : entry.fsBase = cpu.fsBase := enterTrap_fsBase layout text cpu n code
  have begun : kernel.nproc ≠ 0 := started.nproc_ne_zero
  refine ⟨?_, ?_, ?_⟩
  · intro address inDirectMap
    show kernelView contents machine.kernel address ≠ none
    rw [kernelView_eq bootable started resting process,
      if_neg (not_inRange_devices inDirectMap), if_pos inDirectMap]
    exact Option.some_ne_none _
  · have unmapped : cpu.fsBase ≠ thread.base →
        view (cpu.fsBase - thread.offset) = none := by
      intro other
      rw [base.resolve_left other]
      exact kernelView_below_zero bootable started resting process contents thread
    rw [isBase, isFrame]
    rintro (⟨value, enough, returns, _⟩ | ⟨retval, exiting, exits, _⟩)
    · exact manageable_of_handled action _ user unmapped (returns enough le_rfl)
    · exact manageable_of_handled action _ user unmapped (exits 0)
  · intro manageable
    have handled := trap_handled action ((hardwareErr n code).getD 0) user begun
      manageable
    rw [← isFrame, ← isBase] at handled
    rcases handled with ⟨value, enough, returns⟩ | ⟨retval, isKilled, exits⟩
    · refine Or.inl ⟨value, enough, returns, ?_⟩
      intro back returned written
      exact atTrap.resume_rax returned written
    · rcases exitOp_step started resting process n retval (causeOf tf index cr2)
        with ⟨exiting, called⟩
      refine Or.inr ⟨retval, exiting, exits, called, ?_⟩
      intro steps last path
      exact exits_alone started (exitValue_exitOp _ isKilled) called path

/-- A page fault of the first process ends it. -/
theorem user_trap_handled_page_fault :
    ∃ machine cause exiting, Started sampleLayout machine ∧ machine.thread = 1 ∧
      sampleUser.cpl = 3 ∧ sampleUser.fsBase = sampleThread.base ∧
      step sampleLayout (.call (.fault cause)) machine = some (.ok exiting) ∧
      ∀ steps last, Path (step sampleLayout) exiting steps last →
        5 ≤ runs exiting steps →
          (last.kernel.procs 1).state = .exited ∧
          (last.kernel.procs 1).retval = killed := by
  rcases @sample_running (.spawnuser sampleDesc) sampleDesc_prioValid with
    ⟨machine, started, thread, resting, _⟩
  have handled := (user_trap_handled sampleLayout_bootable started resting
    (by rw [thread]; decide) (fun _ => 0) sampleText sampleThread sampleUser_cpl
    (Or.inl rfl) (Or.inr (show 14 < 32 by decide)) 0 0 0).2.mpr
    ⟨fun _ => rfl, nofun⟩
  have faults (view : Addr → Option Byte) (fuel : Nat) :
      trap view fuel sampleThread sampleUser.fsBase machine.kernel
        (Trap.frameOf sampleUser 14 0) = .ok (.exits killed) := by
    rw [trap_user (Or.inr (by decide)) 0 fuel sampleUser_cpl,
      if_neg (by decide)]
    exact callExit_base view sampleThread started.nproc_ne_zero killed
  have frame := (atTrap_enterTrap sampleLayout sampleText sampleUser 14 0).tf
  have base := enterTrap_fsBase sampleLayout sampleText sampleUser 14 0
  rw [frame, base] at handled
  rcases handled with ⟨value, enough, returns, _⟩ | ⟨retval, exiting, exits,
    called, ends⟩
  · have returned := (returns enough le_rfl).symm.trans (faults _ _)
    cases Except.ok.inj returned
  · have exited := (exits 0).symm.trans (faults _ _)
    rcases Handled.exits.inj (Except.ok.inj exited) with rfl
    refine ⟨machine, _, exiting, started, thread, sampleUser_cpl, rfl, called, ?_⟩
    intro steps last path late
    have gone := (ends steps last path).2.2 late
    rwa [thread] at gone

/-- A user process after `int $T_SYSCALL` with a string at an address that is not
mapped. -/
def samplePrint : Cpu :=
  (sampleUser.set .rax sysPrintNum).set .rdi 0x1000

/-- A user process that has loaded its data segment into `fs` and calls `exit`. -/
def sampleReload : Cpu :=
  { sampleUser.set .rax sysExitNum with fsBase := 0 }

/-- A user process can make the kernel panic, with a string that is not mapped and
with a selector of its own in `fs`. -/
theorem print_unmapped_panics :
    ∃ machine, Started sampleLayout machine ∧ machine.code = [] ∧
      machine.thread = 1 ∧
      (machine.kernel.slot 1).ptRoot = machine.kernel.image.upml4 ∧
      samplePrint.cpl = 3 ∧
      loadFs 0x2B (sampleUser.set .rax sysExitNum) = some sampleReload ∧
      ∀ contents fuel,
        let entry := enterTrap sampleLayout sampleText tSyscall 0 samplePrint
        let entry' := enterTrap sampleLayout sampleText tSyscall 0 sampleReload
        trap (kernelView contents machine.kernel) (fuel + 1) sampleThread
            entry.fsBase machine.kernel (tfAt entry.mem (entry.regs .rdi)) =
          .error trapPanic ∧
        trap (kernelView contents machine.kernel) fuel sampleThread
            entry'.fsBase machine.kernel (tfAt entry'.mem (entry'.regs .rdi)) =
          .error trapPanic := by
  rcases @sample_running (.spawnuser sampleDesc) sampleDesc_prioValid with
    ⟨machine, started, thread, resting, _, _, _, ptRoot⟩
  have process : machine.thread ≠ 0 := by
    rw [thread]
    decide
  refine ⟨machine, started, resting, thread, ptRoot, sampleUser_cpl, rfl, ?_⟩
  intro contents fuel entry entry'
  rw [(atTrap_enterTrap sampleLayout sampleText samplePrint tSyscall 0).tf,
    enterTrap_fsBase,
    (atTrap_enterTrap sampleLayout sampleText sampleReload tSyscall 0).tf,
    enterTrap_fsBase,
    trap_user (Or.inl rfl) _ _ (show samplePrint.cpl = 3 from sampleUser_cpl),
    trap_user (Or.inl rfl) _ _ (show sampleReload.cpl = 3 from sampleUser_cpl),
    if_pos rfl, if_pos rfl]
  constructor
  · have unmapped : kernelView contents machine.kernel 0x1000 = none := by
      rw [kernelView_eq sampleLayout_bootable started resting process,
        if_neg (by decide), if_neg (by decide)]
    have served : syscall (kernelView contents machine.kernel) (fuel + 1)
        sysPrintNum 0x1000 7 7 7 7 7 = .error trapPanic := by
      rw [syscall, if_pos rfl, sysPrint, cprintfString, if_neg (by decide),
        putString, fetch, unmapped]
      rfl
    show (syscall _ (fuel + 1) sysPrintNum 0x1000 7 7 7 7 7 >>= _) = _
    rw [served]
    rfl
  · show callExit _ sampleThread sampleReload.fsBase machine.kernel 7 = _
    have unmapped := kernelView_below_zero sampleLayout_bootable started resting
      process contents sampleThread
    rw [callExit, curprocNull_faults (by decide) unmapped]
    rfl

end Rt64.Kernel.TrapSafety
