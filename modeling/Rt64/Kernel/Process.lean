import Rt64.Kernel.Paging
import Rt64.Lib.Record

/-!
# Processes

The functions of `proc.c`, with the timer case of `trap` and `set_task_kstack`
from `trap.c`.  The timer may interrupt a function between any two statements
where interrupts are on, so a function is given as the list of its statements
and `exec` says what one statement does.

The kernel's variables are split in two.  `KernelState` has those that the scheduler
and the timer share: the process states, the sleep counts, the return values,
`curproc`, `nproc` and the cursor of the round robin.  `Image` has the rest: the
memory, the other fields of the process table and the hardware registers that a
switch loads.  A `plain` statement writes to the image only.
-/

namespace Rt64.Kernel.Process

open Rt64.Lib.ByteMemory
open Rt64.Lib.Record
open Rt64.Include.Defs
open Rt64.Klib.String
open Rt64.Kernel.Kalloc
open Rt64.Kernel.Paging

/-! ## The kernel's variables -/

/-- `enum procstate`. -/
inductive ProcState where
  | uninit
  | runnable
  | running
  | exited
  | sleeping
  | reserve
deriving DecidableEq, Repr

/-- The fields of `struct proc` that the scheduler and the timer work on. -/
structure Proc where
  state : ProcState
  retval : BitVec 64
  sleeprem : Int
deriving DecidableEq

/-- The fields that `spawn` fills in; `name` and `ctx` lie in memory. -/
structure Slot where
  pid : Nat
  kstack : Addr
  ptRoot : Addr
  prio : Int
  tf : Addr

structure Image where
  heap : Heap
  slots : Nat → Slot
  kpml4 : Addr
  upml4 : Addr
  cr3 : BitVec 64
  /-- `tss[1]` and `tss[2]`: the kernel stack for entries from user mode. -/
  tss1 : BitVec 32
  tss2 : BitVec 32

structure KernelState where
  procs : Nat → Proc
  nproc : Nat
  /-- `curproc`, `curcpu->idleproc` and `curcpu->idlectx`, as table indices. -/
  curproc : Nat
  idleproc : Nat
  idlectx : Nat
  /-- The static variable `i` of `find_runnable_proc`. -/
  cursor : Nat
  ticks : BitVec 32
  /-- The interrupt flag. -/
  interruptible : Bool
  image : Image

namespace KernelState

def mem (kernel : KernelState) : Memory :=
  kernel.image.heap.mem

/-- The image after a write to memory. -/
def withMem (kernel : KernelState) (mem : Memory) : Image :=
  { kernel.image with heap := { kernel.image.heap with mem } }

/-- The image after a write to a field of the process table. -/
def withSlot (kernel : KernelState) (p : Nat) (slot : Slot) : Image :=
  { kernel.image with slots := Function.update kernel.image.slots p slot }

def slot (kernel : KernelState) (p : Nat) : Slot :=
  kernel.image.slots p

def curRunning (kernel : KernelState) : Bool :=
  (kernel.procs kernel.curproc).state == .running

/-- The kernel after a write to one of the shared fields of a process. -/
def setProc (kernel : KernelState) (p : Nat) (proc : Proc) : KernelState :=
  { kernel with procs := Function.update kernel.procs p proc }

end KernelState

/-! ## Addresses -/

/-- What the linker decides: the arrays of `proc.c`, the user section, the end
of the image, the assembly entry points and a string of `procinit`. -/
structure Layout where
  procs : Addr
  kstacks : Addr
  ustacks : Addr
  ubegin : Addr
  uend : Addr
  last : Addr
  trapret : Addr
  spawnret : Addr
  spawnuserret : Addr
  /-- The characters of `"idle"`. -/
  idleName : Addr

/-- `procs[p].name`; a `struct proc` has 144 bytes. -/
def nameAddr (layout : Layout) (p : Nat) : Addr :=
  layout.procs + BitVec.ofNat 64 (144 * p + 4)

/-- `&procs[p].ctx`. -/
def ctxAddr (layout : Layout) (p : Nat) : Addr :=
  layout.procs + BitVec.ofNat 64 (144 * p + 72)

/-- `kstacks[pid]`. -/
def kstackAddr (layout : Layout) (pid : Nat) : Addr :=
  layout.kstacks + BitVec.ofNat 64 (4096 * pid)

/-- `ustacks[pid]`. -/
def ustackAddr (layout : Layout) (pid : Nat) : Addr :=
  layout.ustacks + BitVec.ofNat 64 (4096 * pid)

/-- `sizeof(struct context)`. -/
abbrev contextSz : BitVec 64 := 72
/-- `sizeof(struct trapframe)`. -/
abbrev trapframeSz : BitVec 64 := 176

/-- The registers of `struct context`. -/
inductive CtxField where
  | r15
  | r14
  | r13
  | r12
  | rbx
  | rbp
  | rip
  | rsp
  | rdi
deriving DecidableEq, Repr

/-- The offset of a register in `struct context`. -/
def CtxField.offset : CtxField → BitVec 64
  | .r15 => 0
  | .r14 => 8
  | .r13 => 16
  | .r12 => 24
  | .rbx => 32
  | .rbp => 40
  | .rip => 48
  | .rsp => 56
  | .rdi => 64

def contextRecord : WordRecord CtxField where
  offset := CtxField.offset
  index field := field.offset.toNat / 8
  size := 72
  offset_eq := by rintro ⟨⟩ <;> rfl
  index_fits := by rintro ⟨⟩ <;> decide
  index_injective := by rintro ⟨⟩ ⟨⟩ same <;> first | rfl | cases same
  small := by decide

/-- The context saved at an address. -/
def ctxAt (mem : Memory) (address : Addr) : CtxField → BitVec 64 :=
  contextRecord.read mem address

/-- The fields of `struct trapframe`. -/
inductive TrapField where
  | rax
  | rbx
  | rcx
  | rdx
  | rbp
  | rsi
  | rdi
  | r8
  | r9
  | r10
  | r11
  | r12
  | r13
  | r14
  | r15
  | trapno
  | err
  | rip
  | cs
  | rflags
  | rsp
  | ss
deriving DecidableEq, Repr

/-- The offset of a field in `struct trapframe`. -/
def TrapField.offset : TrapField → BitVec 64
  | .rax => 0
  | .rbx => 8
  | .rcx => 16
  | .rdx => 24
  | .rbp => 32
  | .rsi => 40
  | .rdi => 48
  | .r8 => 56
  | .r9 => 64
  | .r10 => 72
  | .r11 => 80
  | .r12 => 88
  | .r13 => 96
  | .r14 => 104
  | .r15 => 112
  | .trapno => 120
  | .err => 128
  | .rip => 136
  | .cs => 144
  | .rflags => 152
  | .rsp => 160
  | .ss => 168

def trapframeRecord : WordRecord TrapField where
  offset := TrapField.offset
  index field := field.offset.toNat / 8
  size := 176
  offset_eq := by rintro ⟨⟩ <;> rfl
  index_fits := by rintro ⟨⟩ <;> decide
  index_injective := by rintro ⟨⟩ ⟨⟩ same <;> first | rfl | cases same
  small := by decide

/-- The trap frame at an address. -/
def tfAt (mem : Memory) (address : Addr) : TrapField → BitVec 64 :=
  trapframeRecord.read mem address

/-- `procs[p].ctx.field`. -/
def KernelState.ctx (layout : Layout) (kernel : KernelState) (p : Nat)
    (field : CtxField) : BitVec 64 :=
  ctxAt kernel.mem (ctxAddr layout p) field

/-! ## Initialisation -/

/-- The variables as the image has them: all zero. -/
def KernelState.zero (heap : Heap) : KernelState where
  procs _ := { state := .uninit, retval := 0, sleeprem := 0 }
  nproc := 0
  curproc := 0
  idleproc := 0
  idlectx := 0
  cursor := 0
  ticks := 0
  interruptible := false
  image :=
    { heap
      slots _ := { pid := 0, kstack := 0, ptRoot := 0, prio := 0, tf := 0 }
      kpml4 := 0
      upml4 := 0
      cr3 := 0
      tss1 := 0
      tss2 := 0 }

/-- `procinit` on the processor `index`: the thread that boots becomes the idle
process. -/
def procinit (layout : Layout) (index : Byte) (kernel : KernelState) :
    KernelState :=
  let p := kernel.nproc
  let nproc := kernel.nproc + 1
  let name := nameAddr layout p
  let mem := safestrcpy kernel.mem name layout.idleName 16
  let mem := Function.update mem (name + 5) (48 + index)
  let mem := Function.update mem (name + 6) 0
  { kernel with
    nproc
    curproc := p
    procs := Function.update kernel.procs p
      { kernel.procs p with state := .running }
    idlectx := p
    idleproc := p
    image :=
      { kernel.image with
        heap := { kernel.image.heap with mem }
        slots := Function.update kernel.image.slots p
          { kernel.slot p with
            kstack := 0
            ptRoot := kernel.image.kpml4
            pid := nproc } } }

/-! ## Statements -/

/-- An argument of `cprintf`. -/
inductive Arg where
  /-- `procs[p].name`. -/
  | name (p : Nat)
  | word (value : BitVec 64)

inductive Stmt where
  /-- `ASSERT`, or a conditional `panic`, with the condition to go on. -/
  | check (site : Site) (text : String) (condition : KernelState → Bool)
  /-- A statement that changes nothing but the image. -/
  | plain (act : KernelState → Except Halt Image)
  /-- `cprintf`: a message. -/
  | cprintf (format : String) (args : List Arg)
  | cli
  | sti
  | hlt
  /-- `curproc->state = state`. -/
  | setCurState (state : ProcState)
  /-- `curproc->retval = retval`. -/
  | setCurRetval (retval : BitVec 64)
  /-- `curproc->sleeprem = nticks`. -/
  | setCurSleeprem (nticks : Int)
  /-- `p->state = state`. -/
  | setState (p : Nat) (state : ProcState)
  /-- `p->pid = nproc++`. -/
  | takePid (p : Nat)
  /-- `curproc = p`. -/
  | setCurproc (p : Nat)
  /-- `curproc = curcpu->idleproc`. -/
  | setCurprocIdle
  /-- `swtch(&old->ctx, curcpu->idlectx)`. -/
  | swtchToIdle (old : Nat)
  /-- `swtch(curcpu->idlectx, &curproc->ctx)`. -/
  | swtchFromIdle
  /-- The test in the loop of `find_runnable_proc`. -/
  | probe
  /-- `i = (i + 1) % nproc`. -/
  | advance
  /-- The `if` in `idlemain` on what `find_runnable_proc` returned. -/
  | choose (found : Option Nat)
  /-- The head of the loop in `idlemain`. -/
  | loop

/-! ## The scheduler -/

/-- `lcr3(V2P(curproc->pt_root))`. -/
def lcr3 (kernel : KernelState) : Except Halt Image :=
  .ok { kernel.image with cr3 := v2p (kernel.slot kernel.curproc).ptRoot }

/-- The stores of `set_task_kstack` to the task state segment. -/
def storeTss (kernel : KernelState) : Except Halt Image :=
  let rsp := (kernel.slot kernel.curproc).kstack + kstackSz
  .ok { kernel.image with
    tss1 := rsp.setWidth 32
    tss2 := (rsp >>> 32).setWidth 32 }

def setTaskKstack : List Stmt :=
  [.check .setTaskKstack "curproc != curcpu->idleproc"
      fun kernel => kernel.curproc != kernel.idleproc,
    .plain storeTss]

/-- `sched`, called while `curproc` is `old`. -/
def sched (old : Nat) : List Stmt :=
  [.check .sched "sched running" fun kernel => !kernel.curRunning,
    .check .sched "sched interruptible" fun kernel => !kernel.interruptible,
    .setCurprocIdle,
    .plain lcr3,
    .swtchToIdle old,
    .check .sched "curproc != curcpu->idleproc"
      fun kernel => kernel.curproc != kernel.idleproc]

/-- `yield`, called by the process `cur`. -/
def yield (cur : Nat) : List Stmt :=
  [.check .yield "curproc->state == RUNNING" KernelState.curRunning,
    .cli,
    .setCurState .runnable] ++ sched cur

/-- `exit`, called by the process `cur`. -/
def exit (retval : BitVec 64) (cur : Nat) : List Stmt :=
  [.check .exit "curproc->state == RUNNING" KernelState.curRunning,
    .cli,
    .setCurState .exited,
    .setCurRetval retval,
    .cprintf "proc: exited %s, retval=%p\n" [.name cur, .word retval]] ++
  sched cur ++
  [.check .exit "proc: exit unreachable" fun _ => false]

/-- `sleep`, called by the process `cur`. -/
def sleep (nticks : Int) (cur : Nat) : List Stmt :=
  [.check .sleep "cannot sleep %d ticks" fun _ => decide (0 ≤ nticks)] ++
  if nticks = 0 then []
  else
    [.check .sleep "curproc->state == RUNNING" KernelState.curRunning,
      .cli,
      .setCurState .sleeping,
      .setCurSleeprem nticks] ++ sched cur

/-- The branch of `idlemain` taken for a process that was found. -/
def dispatch (p : Nat) : List Stmt :=
  [.setCurproc p,
    .setCurState .running,
    .plain lcr3] ++ setTaskKstack ++
  [.swtchFromIdle,
    .check .idlemain "curproc == curcpu->idleproc"
      fun kernel => kernel.curproc == kernel.idleproc,
    .loop]

def idlemain : List Stmt :=
  [.loop]

/-! ## What a statement does -/

/--
One statement, other than a switch: the kernel afterwards and the statements
that it unfolds to.
-/
def Stmt.exec (kernel : KernelState) : Stmt → Except Halt (KernelState × List Stmt)
  | .check site text condition => do
      assert site text (condition kernel = true)
      return (kernel, [])
  | .plain act => do
      let image ← act kernel
      return ({ kernel with image }, [])
  -- the characters go to the devices, which are not among these variables
  | .cprintf _ _ => .ok (kernel, [])
  | .cli => .ok ({ kernel with interruptible := false }, [])
  | .sti => .ok ({ kernel with interruptible := true }, [])
  -- the processor waits here for an interrupt, which may come at once
  | .hlt => .ok (kernel, [])
  | .setCurState state =>
      .ok (kernel.setProc kernel.curproc
        { kernel.procs kernel.curproc with state }, [])
  | .setCurRetval retval =>
      .ok (kernel.setProc kernel.curproc
        { kernel.procs kernel.curproc with retval }, [])
  | .setCurSleeprem nticks =>
      .ok (kernel.setProc kernel.curproc
        { kernel.procs kernel.curproc with sleeprem := nticks }, [])
  | .setState p state =>
      .ok (kernel.setProc p { kernel.procs p with state }, [])
  | .takePid p =>
      .ok ({ kernel with
        nproc := kernel.nproc + 1
        image := kernel.withSlot p
          { kernel.slot p with pid := kernel.nproc } }, [])
  | .setCurproc p => .ok ({ kernel with curproc := p }, [])
  | .setCurprocIdle => .ok ({ kernel with curproc := kernel.idleproc }, [])
  | .swtchToIdle _ => .ok (kernel, [])
  | .swtchFromIdle => .ok (kernel, [])
  | .probe =>
      if (kernel.procs kernel.cursor).state = .runnable then
        .ok (kernel, [.advance, .choose (some kernel.cursor)])
      else
        .ok (kernel, [.advance, .probe])
  | .advance =>
      .ok ({ kernel with cursor := (kernel.cursor + 1) % kernel.nproc }, [])
  | .choose (some p) => .ok (kernel, dispatch p)
  | .choose none => .ok (kernel, [.hlt, .loop])
  | .loop => .ok (kernel, [.sti, .probe])

/-! ## The timer -/

/-- The body of the loop over the table in `trap`, for one process. -/
def tickProc (procs : Nat → Proc) (i : Nat) : Nat → Proc :=
  if (procs i).state = .sleeping then
    let sleeprem := (procs i).sleeprem - 1
    if sleeprem = 0 then
      Function.update procs i
        { procs i with sleeprem, state := .runnable }
    else
      Function.update procs i { procs i with sleeprem }
  else
    procs

/-- The timer case of `trap`; it runs with interrupts off. -/
def timerTrap (kernel : KernelState) : KernelState :=
  { kernel with
    ticks := kernel.ticks + 1
    procs := (List.range kernel.nproc).foldl tickProc kernel.procs }

/-! ## Creating processes -/

/-- `struct newprocdesc`; `name` is the address of its characters. -/
structure NewProcDesc where
  name : Addr
  func : Addr
  initarg : BitVec 64
  prio : Int

/-- A statement that writes to memory. -/
def write (mem : KernelState → Memory) : Stmt :=
  .plain fun kernel => .ok (kernel.withMem (mem kernel))

/-- A statement that writes to a field of the process table. -/
def writeSlot (p : Nat) (slot : KernelState → Slot) : Stmt :=
  .plain fun kernel => .ok (kernel.withSlot p (slot kernel))

/-- `p->ctx.field = value`. -/
def setCtx (layout : Layout) (p : Nat) (field : CtxField)
    (value : KernelState → BitVec 64) : Stmt :=
  write fun kernel =>
    store64 kernel.mem (ctxAddr layout p + field.offset) (value kernel)

/-- `p->tf->field = value`. -/
def setTf (p : Nat) (field : TrapField) (value : KernelState → BitVec 64) : Stmt :=
  write fun kernel =>
    store64 kernel.mem ((kernel.slot p).tf + field.offset) (value kernel)

/-- `p->tf->field`. -/
def KernelState.tf (kernel : KernelState) (p : Nat) (field : TrapField) :
    BitVec 64 :=
  tfAt kernel.mem (kernel.slot p).tf field

/-- `allocproc`, for the table entry `p = nproc`. -/
def allocproc (layout : Layout) (p : Nat) : List Stmt :=
  [.setState p .reserve,
    .takePid p,
    write fun kernel => memset kernel.mem (ctxAddr layout p) 0 contextSz,
    writeSlot p fun kernel =>
      { kernel.slot p with
        kstack := kstackAddr layout (kernel.slot p).pid }]

def checkPrio (site : Site) (desc : NewProcDesc) : Stmt :=
  .check site "MINPRIO <= desc->prio && desc->prio <= MAXPRIO" fun _ =>
    decide (minprio ≤ desc.prio ∧ desc.prio ≤ maxprio)

/-- `safestrcpy(p->name, desc->name, 16)` and `p->prio = desc->prio`. -/
def setNameAndPrio (layout : Layout) (desc : NewProcDesc) (p : Nat) :
    List Stmt :=
  [write fun kernel =>
      safestrcpy kernel.mem (nameAddr layout p) desc.name 16,
    writeSlot p fun kernel => { kernel.slot p with prio := desc.prio }]

/-- `spawn`, called while `nproc` is `p`. -/
def spawn (layout : Layout) (desc : NewProcDesc) (p : Nat) : List Stmt :=
  [checkPrio .spawn desc] ++ allocproc layout p ++
  setNameAndPrio layout desc p ++
  [writeSlot p fun kernel =>
      { kernel.slot p with ptRoot := kernel.image.kpml4 },
    setCtx layout p .rip fun _ => desc.func,
    setCtx layout p .rsp fun kernel => (kernel.slot p).kstack + kstackSz,
    setCtx layout p .rbp fun kernel => (kernel.slot p).kstack + kstackSz,
    setCtx layout p .rdi fun _ => desc.initarg,
    setCtx layout p .rsp fun kernel => kernel.ctx layout p .rsp - xlenb,
    write fun kernel =>
      store64 kernel.mem (kernel.ctx layout p .rsp) layout.spawnret,
    setCtx layout p .rsp fun kernel => kernel.ctx layout p .rsp - xlenb,
    .setState p .runnable]

/-- `paging_map` of the process's user stack into its address space. -/
def mapUstack (layout : Layout) (p : Nat) (kernel : KernelState) :
    Except Halt Image := do
  let ustack := ustackAddr layout (kernel.slot p).pid
  let heap ← pagingMap (kernel.slot p).ptRoot ustack (v2p ustack) ustackSz
    (pfU ||| pfW) kernel.image.heap
  return { kernel.image with heap }

/-- `spawnuser`, called while `nproc` is `p`. -/
def spawnuser (layout : Layout) (desc : NewProcDesc) (p : Nat) :
    List Stmt :=
  [checkPrio .spawnuser desc] ++ allocproc layout p ++
  setNameAndPrio layout desc p ++
  [writeSlot p fun kernel =>
      { kernel.slot p with ptRoot := kernel.image.upml4 },
    setCtx layout p .rip fun _ => layout.trapret,
    setCtx layout p .rsp fun kernel => (kernel.slot p).kstack + kstackSz,
    setCtx layout p .rbp fun kernel => (kernel.slot p).kstack + kstackSz,
    setCtx layout p .rsp fun kernel =>
      kernel.ctx layout p .rsp - trapframeSz,
    writeSlot p fun kernel =>
      { kernel.slot p with tf := kernel.ctx layout p .rsp },
    write fun kernel => memset kernel.mem (kernel.slot p).tf 0 trapframeSz,
    setCtx layout p .rsp fun kernel => kernel.ctx layout p .rsp - xlenb,
    .plain (mapUstack layout p),
    setTf p .ss fun _ => segUdata <<< 3 ||| dplUser,
    setTf p .rsp fun kernel =>
      ustackAddr layout (kernel.slot p).pid + pgSz4K,
    setTf p .rsp fun kernel => kernel.tf p .rsp - xlenb,
    write fun kernel =>
      store64 kernel.mem (kernel.tf p .rsp) layout.spawnuserret,
    setTf p .rflags fun _ => flIf,
    setTf p .cs fun _ => segUcode <<< 3 ||| dplUser,
    setTf p .rip fun _ => desc.func,
    setTf p .rdi fun _ => desc.initarg,
    .setState p .runnable]

/-- A run of statements that is not interrupted. -/
def execAll (kernel : KernelState) (code : List Stmt) : Except Halt KernelState :=
  code.foldlM (fun kernel stmt => do return (← stmt.exec kernel).1) kernel

/-! ## A sample image -/

/-- An image that ends at 1M + 80K. -/
def sampleLayout : Layout where
  procs := 0xFFFFFFFF80100000
  kstacks := 0xFFFFFFFF80102000
  ustacks := 0xFFFFFFFF8010A000
  ubegin := 0xFFFFFFFF80112000
  uend := 0xFFFFFFFF80114000
  last := 0xFFFFFFFF80114000
  trapret := 0xFFFFFFFF80110000
  spawnret := 0xFFFFFFFF80110040
  spawnuserret := 0xFFFFFFFF80112000
  idleName := 0xFFFFFFFF80101000

def sampleDesc : NewProcDesc where
  name := 0xFFFFFFFF80101008
  func := 0xFFFFFFFF80112040
  initarg := 7
  prio := 0

end Rt64.Kernel.Process
