import Rt64.Kernel.Console
import Rt64.Kernel.Spawn
import Rt64.Lib.X64

/-!
# Traps

The stubs that `vectors.py` generates, `alltraps` and `trapret` from
`trapasm.S`, `trap` and `syscall`.  An interrupt makes the processor push what it
returns to and enter the stub of the vector; the stub and `alltraps` complete the
`struct trapframe` below it, and `trapret` goes the same way back.
-/

namespace Rt64.Kernel.Trap

open Rt64.Lib.ByteMemory
open Rt64.Lib.X64
open Rt64.Include.Defs
open Rt64.Include.Access
open Rt64.Kernel.Console
open Rt64.Kernel.Process
open Rt64.Kernel.Spawn

/-! ## The assembly -/

/-- The addresses of the code that the assembly and the gates refer to. -/
structure Text where
  vectors : Nat → Addr
  alltraps : Addr
  trap : Addr
  exit : Addr
  usysexit : Addr
  /-- The `int` in `usysexit` and the `ret` after it. -/
  usysexitInt : Addr
  usysexitRet : Addr

/-- The zero that a stub pushes unless the vector has an error code. -/
def pushErrCode (n : Nat) : List Instr :=
  if n ∈ [8, 10, 11, 12, 13, 14, 17] then [] else [.pushImm 0]

/-- `vector<n>`. -/
def vector (text : Text) (n : Nat) : Routine where
  body := pushErrCode n ++ [.pushImm (BitVec.ofNat 64 n)]
  last := .jmp text.alltraps

/-- The registers in the order in which `alltraps` pushes them. -/
def alltrapsRegs : List Reg :=
  [.r15, .r14, .r13, .r12, .r11, .r10, .r9, .r8, .rdi, .rsi, .rbp, .rdx, .rcx,
    .rbx, .rax]

/-- `alltraps`; the call returns to `trapret`, which comes next. -/
def alltraps (layout : Layout) (text : Text) : Routine where
  body := alltrapsRegs.map .push ++ [.mov .rsp .rdi]
  last := .call text.trap layout.trapret

/-- The registers in the order in which `trapret` pops them. -/
def trapretRegs : List Reg :=
  [.rax, .rbx, .rcx, .rdx, .rbp, .rsi, .rdi, .r8, .r9, .r10, .r11, .r12, .r13,
    .r14, .r15]

/-- `trapret`; `trapno` and `err` are discarded before `iretq`. -/
def trapret : Routine where
  body := trapretRegs.map .pop ++ [.addImm 16 .rsp]
  last := .iretq

/-- `spawnret`. -/
def spawnret (text : Text) : Routine where
  body := [.mov .rax .rdi]
  last := .jmp text.exit

/-- `spawnuserret`. -/
def spawnuserret (text : Text) : Routine where
  body := [.mov .rax .rdi]
  last := .jmp text.usysexit

/-! ## The gates -/

abbrev tIrq0 : Nat := 32
abbrev irqTimer : Nat := 0
abbrev tSyscall : Nat := 64

/-- `SYSCALL(exit)`, up to its `ret`. -/
def usysexit (text : Text) : Routine where
  body := [.movImm 13 .rax]
  last := .int tSyscall text.usysexitInt text.usysexitRet

/-- The gate that `mkgate` writes. -/
def mkgate (kva : Addr) (pl : Nat) (trap : Bool) : Gate where
  handler := kva
  selector := (segKcode <<< 3).setWidth 16
  dpl := pl
  trapGate := trap

/-- The descriptor table after `trapinit`. -/
def idt (text : Text) : Nat → Gate :=
  Function.update (fun n => mkgate (text.vectors n) 0 false) tSyscall
    (mkgate (text.vectors tSyscall) 3 true)

/-- The error code that the processor pushes for a vector, if it does. -/
def hardwareErr (n : Nat) (code : BitVec 64) : Option (BitVec 64) :=
  if n = 8 ∨ 10 ≤ n ∧ n ≤ 14 ∨ n = 17 then some code else none

/-- An interrupt up to the call of `trap`. -/
def enterTrap (layout : Layout) (text : Text) (n : Nat) (code : BitVec 64)
    (cpu : Cpu) : Cpu :=
  (alltraps layout text).run ((vector text n).run
    (deliver n (hardwareErr n code) cpu))

/-! ## System calls -/

abbrev sysPrintNum : BitVec 64 := 12
abbrev sysExitNum : BitVec 64 := 13

/-- What the handler does about a trap from kernel mode. -/
def trapPanic : Halt :=
  .panic .trap
    "trap: curproc=%s trapno=%d cpu=%d rip=%p cr2=%x panicked\n"

/-- An access to a byte that is not mapped is a page fault from kernel mode. -/
def faultPanic : Stop → Halt
  | .halt reason => reason
  | _ => trapPanic

/-- `cprintf("%s", s)`: what it puts on the console.  `view` is the memory as the
kernel sees it. -/
def cprintfString (view : View) (fuel : Nat) (s : Addr) :
    Except Halt (List Byte) :=
  if s = 0 then .ok nullText else (putString view fuel s).mapError faultPanic

/-- How a system call ends. -/
inductive Served where
  | returns (value : BitVec 64)
  /-- It calls `exit`, which does not return. -/
  | exits (retval : BitVec 64)
deriving DecidableEq, Repr

def sysPrint (view : Addr → Option Byte) (fuel : Nat) (a0 : BitVec 64) :
    Except Halt Served := do
  let _ ← cprintfString view fuel a0
  return .returns 0

def sysExit (retval : BitVec 64) : Except Halt Served :=
  .ok (.exits retval)

def syscall (view : Addr → Option Byte) (fuel : Nat)
    (num a0 _a1 _a2 _a3 _a4 _a5 : BitVec 64) : Except Halt Served :=
  if num = sysPrintNum then sysPrint view fuel a0
  else if num = sysExitNum then sysExit a0
  else .ok (.returns (-1))

/-! ## The handler -/

/-- The thread-local variables of a processor: three pointers below `base`, which
`trapinit` makes the base of `fs`.  The linker decides which of them is `curproc`. -/
structure Thread where
  base : Addr
  slot : Fin 3

/-- How far below the base `curproc` lies. -/
def Thread.offset (thread : Thread) : BitVec 64 :=
  BitVec.ofNat 64 (8 * (thread.slot.val + 1))

theorem Thread.offset_cases (thread : Thread) :
    thread.offset = 8 ∨ thread.offset = 16 ∨ thread.offset = 24 := by
  rcases thread with ⟨base, _ | _ | _ | slot, bound⟩
  · exact Or.inl rfl
  · exact Or.inr (Or.inl rfl)
  · exact Or.inr (Or.inr rfl)
  · omega

/--
The test `curproc == 0`.  The code takes the variable from below whatever base `fs`
has.  With the base that `trapinit` has set it is the kernel's `curproc`, which is
null before `procinit`.
-/
def curprocNull (view : Addr → Option Byte) (thread : Thread) (fs : Addr)
    (kernel : KernelState) : Except Halt Bool :=
  if fs = thread.base then .ok (kernel.nproc == 0)
  else
    match fetchWord view (fs - thread.offset) 8 with
    | .ok pointer => .ok (pointer == 0)
    | .error _ => .error trapPanic

/-- How a call of `trap` ends. -/
inductive Handled where
  /-- It returns, with the frame as it is then. -/
  | returns (kernel : KernelState) (tf : TrapField → BitVec 64)
  /-- It calls `exit`. -/
  | exits (retval : BitVec 64)

/-- The call of `exit`, which begins with `curproc->state`. -/
def callExit (view : Addr → Option Byte) (thread : Thread) (fs : Addr)
    (kernel : KernelState) (retval : BitVec 64) : Except Halt Handled := do
  if ← curprocNull view thread fs kernel then .error trapPanic
  else return .exits retval

/-- `trap`, with the base that `fs` has. -/
def trap (view : Addr → Option Byte) (fuel : Nat) (thread : Thread) (fs : Addr)
    (kernel : KernelState) (tf : TrapField → BitVec 64) :
    Except Halt Handled :=
  if tf .trapno = BitVec.ofNat 64 (tIrq0 + irqTimer) then
    .ok (.returns (timerTrap kernel) tf)
  else if tf .trapno = BitVec.ofNat 64 tSyscall then do
    match ← syscall view fuel (tf .rax) (tf .rdi) (tf .rsi) (tf .rdx)
      (tf .rcx) (tf .r8) (tf .r9) with
    | .returns value => return .returns kernel (Function.update tf .rax value)
    | .exits retval => callExit view thread fs kernel retval
  else do
    if (← curprocNull view thread fs kernel) || tf .cs &&& 3 == 0 then
      .error trapPanic
    else callExit view thread fs kernel 0xDEADDEADDEADDEAD

/-! ## Entry -/

/-- The frame that a trap handler should be given. -/
def frameOf (cpu : Cpu) (n : Nat) (err : BitVec 64) : TrapField → BitVec 64
  | .rax => cpu.regs .rax
  | .rbx => cpu.regs .rbx
  | .rcx => cpu.regs .rcx
  | .rdx => cpu.regs .rdx
  | .rbp => cpu.regs .rbp
  | .rsi => cpu.regs .rsi
  | .rdi => cpu.regs .rdi
  | .r8 => cpu.regs .r8
  | .r9 => cpu.regs .r9
  | .r10 => cpu.regs .r10
  | .r11 => cpu.regs .r11
  | .r12 => cpu.regs .r12
  | .r13 => cpu.regs .r13
  | .r14 => cpu.regs .r14
  | .r15 => cpu.regs .r15
  | .trapno => BitVec.ofNat 64 n
  | .err => err
  | .rip => cpu.rip
  | .cs => cpu.cs.setWidth 64
  | .rflags => cpu.rflags
  | .rsp => cpu.regs .rsp
  | .ss => cpu.ss.setWidth 64

/-- The words of the frame in the order in which they are pushed. -/
def frameWords (cpu : Cpu) (n : Nat) (err : BitVec 64) : List (BitVec 64) :=
  deliverWords (some err) cpu ++ [BitVec.ofNat 64 n] ++
    alltrapsRegs.map cpu.regs

/-- The frame has been pushed. -/
def trapPushed (cpu : Cpu) (n : Nat) (err : BitVec 64) : Cpu :=
  pushAll (cpu.set .rsp (deliverTop cpu)) (frameWords cpu n err)

/-- The error code in the frame is the processor's or the stub's zero. -/
theorem hardwareErr_pushErrCode (n : Nat) (code : BitVec 64) :
    (hardwareErr n code = some code ∧ pushErrCode n = []) ∨
      hardwareErr n code = none ∧ pushErrCode n = [.pushImm 0] := by
  by_cases pushed : n = 8 ∨ 10 ≤ n ∧ n ≤ 14 ∨ n = 17
  · refine Or.inl ⟨if_pos pushed, if_pos ?_⟩
    simp only [List.mem_cons, List.not_mem_nil, or_false]
    omega
  · refine Or.inr ⟨if_neg pushed, if_neg ?_⟩
    simp only [List.mem_cons, List.not_mem_nil, or_false]
    omega

/-- The stub completes what the processor has pushed. -/
theorem stub_words (n : Nat) (code : BitVec 64) :
    ∃ words, (∀ cpu, execBody cpu (pushErrCode n) = pushAll cpu words) ∧
      ∀ cpu, deliverWords (hardwareErr n code) cpu ++ words =
        deliverWords (some ((hardwareErr n code).getD 0)) cpu := by
  rcases hardwareErr_pushErrCode n code with ⟨pushed, none⟩ | ⟨none, pushed⟩
  · rw [pushed, none]
    exact ⟨[], fun _ => rfl, fun _ => List.append_nil _⟩
  · rw [pushed, none]
    exact ⟨[0], fun _ => rfl, fun _ => rfl⟩

section Entry

variable (layout : Layout) (text : Text) (cpu : Cpu) (n : Nat)
variable (code : BitVec 64)

theorem vector_run {words : List (BitVec 64)}
    (stub : ∀ cpu, execBody cpu (pushErrCode n) = pushAll cpu words) :
    (vector text n).run cpu =
      { pushAll cpu (words ++ [BitVec.ofNat 64 n]) with
        rip := text.alltraps } := by
  rw [Routine.run, vector, execBody_append, stub, pushAll_append]
  rfl

/-- At the end of `alltraps` the frame has been pushed. -/
theorem alltraps_pushed {delivered : Cpu}
    (isDelivered : deliver n (hardwareErr n code) cpu = delivered) :
    let before := execBody ((vector text n).run delivered)
      (alltrapsRegs.map .push)
    let pushed := trapPushed cpu n ((hardwareErr n code).getD 0)
    before.regs = pushed.regs ∧ before.mem = pushed.mem := by
  intro before pushed
  rcases stub_words n code with ⟨words, stub, join⟩
  have regs := deliver_regs n (hardwareErr n code) cpu
  have mem := deliver_mem n (hardwareErr n code) cpu
  rw [isDelivered] at regs mem
  have same := pushAll_congr regs mem (words ++ [BitVec.ofNat 64 n])
  rw [← pushAll_append, ← List.append_assoc, join] at same
  have kept : alltrapsRegs.map ((vector text n).run delivered).regs =
      alltrapsRegs.map cpu.regs := by
    apply List.map_congr_left
    intro reg member
    have other : reg ≠ .rsp := by
      rintro rfl
      revert member
      decide
    rw [vector_run text delivered n stub]
    exact (congrFun same.1 reg).trans
      ((pushAll_other _ _ other).trans (set_other _ _ other))
  have all : before = pushAll ((vector text n).run delivered)
      (alltrapsRegs.map cpu.regs) := by
    rw [← kept]
    exact execBody_push _ (by decide)
  rw [all, show pushed = _ from pushAll_append _ _ _,
    vector_run text delivered n stub]
  refine pushAll_congr ?_ ?_ _
  · exact same.1
  · exact same.2

/-- The address of the frame. -/
def frameAddr (cpu : Cpu) : Addr :=
  deliverTop cpu - trapframeSz

theorem trapPushed_rsp (err : BitVec 64) :
    (trapPushed cpu n err).regs .rsp = frameAddr cpu := by
  rw [trapPushed, pushAll_rsp, set_same]
  rfl

/-- The words lie where `struct trapframe` has its fields. -/
theorem trapPushed_tf (err : BitVec 64) :
    tfAt (trapPushed cpu n err).mem (frameAddr cpu) = frameOf cpu n err := by
  have words (i : Nat) (bound : i < 22) :
      load64 (trapPushed cpu n err).mem
        (frameAddr cpu + BitVec.ofNat 64 (8 * i)) =
          (frameWords cpu n err).get ⟨21 - i, by
            show 21 - i < 22
            omega⟩ := by
    have place : frameAddr cpu + BitVec.ofNat 64 (8 * i) =
        (cpu.set .rsp (deliverTop cpu)).regs .rsp -
          BitVec.ofNat 64 (8 * (21 - i + 1)) := by
      rw [set_same, frameAddr]
      bv_omega
    have length : (frameWords cpu n err).length = 22 := rfl
    rw [place]
    exact pushAll_word _ (by rw [length]; decide) _
  funext field
  have fits := trapframeRecord.index_fits field
  have small : trapframeRecord.index field < 22 := by
    have size : trapframeRecord.size = 176 := rfl
    omega
  have found := words _ small
  rw [← trapframeRecord.offset_eq] at found
  refine Eq.trans found ?_
  cases field <;> rfl

/-- What `trap` finds when it is called. -/
structure AtTrap (layout : Layout) (text : Text) (cpu : Cpu) (n : Nat)
    (err : BitVec 64) (entry : Cpu) : Prop where
  rip : entry.rip = text.trap
  /-- The argument is the frame. -/
  rdi : entry.regs .rdi = frameAddr cpu
  rsp : entry.regs .rsp = frameAddr cpu - 8
  ret : load64 entry.mem (entry.regs .rsp) = layout.trapret
  tf : tfAt entry.mem (entry.regs .rdi) = frameOf cpu n err

/-- `alltraps` pushes the return address below the frame. -/
theorem enterTrap_eq :
    let before := execBody ((vector text n).run
      (deliver n (hardwareErr n code) cpu)) (alltrapsRegs.map .push)
    enterTrap layout text n code cpu =
      { (before.set .rdi (before.regs .rsp)).push layout.trapret with
        rip := text.trap } := by
  intro before
  rw [enterTrap, alltraps, Routine.run, execBody_append]
  rfl

theorem enterTrap_mem :
    (enterTrap layout text n code cpu).mem =
      store64 (trapPushed cpu n ((hardwareErr n code).getD 0)).mem
        (frameAddr cpu - 8) layout.trapret := by
  rcases alltraps_pushed text cpu n code rfl with ⟨regs, mem⟩
  rw [enterTrap_eq, ← mem, ← trapPushed_rsp cpu n, ← regs]
  simp [Cpu.push, Cpu.set]

/-- The words of an entry lie between the return address and the top. -/
theorem enterTrap_outside {address : Addr}
    (outside : ¬ Within (frameAddr cpu - 8) 184 address) :
    (enterTrap layout text n code cpu).mem address = cpu.mem address := by
  have length (err : BitVec 64) : (frameWords cpu n err).length = 22 := rfl
  rw [enterTrap_mem]
  have outsideRet : ¬ Within (frameAddr cpu - 8) 8 address := by
    simp only [Within] at outside ⊢
    omega
  refine (store64_outside _ _ _ _ outsideRet).trans ?_
  refine pushAll_outside _ (by rw [length]; decide) ?_
  rw [length, set_same]
  simp only [Within, frameAddr] at outside ⊢
  bv_omega

theorem enterTrap_fsBase :
    (enterTrap layout text n code cpu).fsBase = cpu.fsBase := by
  rw [enterTrap, run_fsBase, run_fsBase, deliver_fsBase]

theorem atTrap_enterTrap :
    AtTrap layout text cpu n ((hardwareErr n code).getD 0)
      (enterTrap layout text n code cpu) := by
  generalize isErr : (hardwareErr n code).getD 0 = err
  have written := enterTrap_mem layout text cpu n code
  rcases alltraps_pushed text cpu n code rfl with ⟨regs, mem⟩
  rw [isErr] at regs written
  have ran := enterTrap_eq layout text cpu n code
  have top := congrFun regs .rsp
  rw [trapPushed_rsp] at top
  have rdi : (enterTrap layout text n code cpu).regs .rdi = frameAddr cpu := by
    rw [ran, ← top]
    simp [Cpu.push, Cpu.set]
  have rsp : (enterTrap layout text n code cpu).regs .rsp =
      frameAddr cpu - 8 := by
    rw [ran, ← top]
    simp [Cpu.push, Cpu.set]
  refine ⟨by rw [ran], rdi, rsp, ?_, ?_⟩
  · rw [written, rsp]
    exact load64_store64_same _ _ _
  · rw [written, rdi, ← trapPushed_tf]
    -- the return address lies below the frame
    refine tfAt_store_apart ?_
    intro address inFrame inSlot
    simp only [Within] at inFrame inSlot
    bv_omega

end Entry

/-! ## Return -/

/-- The processor is set to the state of a frame. -/
def restore (tf : TrapField → BitVec 64) (cpu : Cpu) : Cpu :=
  { cpu with
    regs := fun
      | .rax => tf .rax
      | .rbx => tf .rbx
      | .rcx => tf .rcx
      | .rdx => tf .rdx
      | .rbp => tf .rbp
      | .rsi => tf .rsi
      | .rdi => tf .rdi
      | .rsp => tf .rsp
      | .r8 => tf .r8
      | .r9 => tf .r9
      | .r10 => tf .r10
      | .r11 => tf .r11
      | .r12 => tf .r12
      | .r13 => tf .r13
      | .r14 => tf .r14
      | .r15 => tf .r15
    rip := tf .rip
    cs := (tf .cs).setWidth 16
    rflags := tf .rflags
    ss := (tf .ss).setWidth 16 }

/-- `trapret` and `iretq` take the state from the frame at the stack pointer. -/
theorem trapret_run (cpu : Cpu) :
    trapret.run cpu = restore (tfAt cpu.mem (cpu.regs .rsp)) cpu := by
  have field (field : TrapField) : tfAt cpu.mem (cpu.regs .rsp) field =
      load64 cpu.mem (cpu.regs .rsp + field.offset) := rfl
  have up (i j : BitVec 64) : cpu.regs .rsp + i + j =
      cpu.regs .rsp + (i + j) := BitVec.add_assoc _ _ _
  rw [Routine.run, trapret, execBody_append, execBody_pop cpu (by decide)
    (by decide)]
  simp only [execBody, List.foldl_cons, List.foldl_nil, Instr.exec, Jump.exec,
    iretq, Cpu.set, Function.update_self, restore, field, Cpu.mk.injEq]
  refine ⟨?_, ?_, ?_, ?_, ?_, trivial, trivial, trivial, trivial⟩
  · funext reg
    cases reg <;> simp [trapretRegs, TrapField.offset, up]
  all_goals simp [trapretRegs, TrapField.offset, up]

/-- A call has returned. -/
structure Returned (entry back : Cpu) : Prop where
  rip : back.rip = load64 entry.mem (entry.regs .rsp)
  rsp : back.regs .rsp = entry.regs .rsp + 8

/-- Two processors agree on what an interrupt must not disturb. -/
structure SameContext (left right : Cpu) : Prop where
  regs : left.regs = right.regs
  rip : left.rip = right.rip
  cs : left.cs = right.cs
  rflags : left.rflags = right.rflags
  ss : left.ss = right.ss

/-- A frame whose `rax` has been written restores that value. -/
theorem restore_update_rax (cpu back : Cpu) (n : Nat) (err value : BitVec 64) :
    SameContext
      (restore (Function.update (frameOf cpu n err) .rax value) back)
      (cpu.set .rax value) := by
  have selector (segment : BitVec 16) :
      (segment.setWidth 64).setWidth 16 = segment := by simp
  refine ⟨?_, rfl, selector cpu.cs, rfl, selector cpu.ss⟩
  funext reg
  cases reg <;> rfl

theorem restore_frameOf (cpu back : Cpu) (n : Nat) (err : BitVec 64) :
    SameContext (restore (frameOf cpu n err) back) cpu := by
  have same := restore_update_rax cpu back n err (cpu.regs .rax)
  have frame : Function.update (frameOf cpu n err) .rax (cpu.regs .rax) =
      frameOf cpu n err := Function.update_eq_self TrapField.rax _
  have regs : cpu.set .rax (cpu.regs .rax) = cpu := by
    rw [Cpu.set, Function.update_eq_self]
  rwa [frame, regs] at same

/-- The handler returns to `trapret`, which restores its frame. -/
theorem AtTrap.resume {layout : Layout} {text : Text} {cpu entry back : Cpu}
    {n : Nat} {err : BitVec 64} (atTrap : AtTrap layout text cpu n err entry)
    (returned : Returned entry back) :
    back.rip = layout.trapret ∧
      trapret.run back =
        restore (tfAt back.mem (entry.regs .rdi)) back := by
  have rsp : back.regs .rsp = entry.regs .rdi := by
    rw [returned.rsp, atTrap.rsp, atTrap.rdi]
    bv_omega
  refine ⟨returned.rip.trans atTrap.ret, ?_⟩
  rw [trapret_run, rsp]

/-- With its frame as it was, the interrupted context goes on. -/
theorem AtTrap.resume_same {layout : Layout} {text : Text}
    {cpu entry back : Cpu} {n : Nat} {err : BitVec 64}
    (atTrap : AtTrap layout text cpu n err entry)
    (returned : Returned entry back)
    (kept : tfAt back.mem (entry.regs .rdi) =
      tfAt entry.mem (entry.regs .rdi)) :
    back.rip = layout.trapret ∧ SameContext (trapret.run back) cpu := by
  rcases atTrap.resume returned with ⟨rip, ran⟩
  rw [ran, kept, atTrap.tf]
  exact ⟨rip, restore_frameOf cpu back n err⟩

/-- With a value written to its frame, it goes on with this value in `rax`. -/
theorem AtTrap.resume_rax {layout : Layout} {text : Text}
    {cpu entry back : Cpu} {n : Nat} {err value : BitVec 64}
    (atTrap : AtTrap layout text cpu n err entry)
    (returned : Returned entry back)
    (written : tfAt back.mem (entry.regs .rdi) =
      Function.update (tfAt entry.mem (entry.regs .rdi)) .rax value) :
    back.rip = layout.trapret ∧
      SameContext (trapret.run back) (cpu.set .rax value) := by
  rcases atTrap.resume returned with ⟨rip, ran⟩
  rw [ran, written, atTrap.tf]
  exact ⟨rip, restore_update_rax cpu back n err value⟩

/-- With the base that `trapinit` has set, `exit` is called. -/
theorem callExit_base (view : Addr → Option Byte) (thread : Thread)
    {kernel : KernelState} (begun : kernel.nproc ≠ 0) (retval : BitVec 64) :
    callExit view thread thread.base kernel retval = .ok (.exits retval) := by
  have notNull : curprocNull view thread thread.base kernel = .ok false := by
    rw [curprocNull, if_pos rfl, beq_false_of_ne begun]
  rw [callExit, notNull]
  rfl

/-- A system call that returns writes its value to the frame. -/
theorem trap_syscall {view : Addr → Option Byte} {fuel : Nat}
    {tf : TrapField → BitVec 64} (value : BitVec 64)
    (number : tf .trapno = BitVec.ofNat 64 tSyscall)
    (returns : syscall view fuel (tf .rax) (tf .rdi) (tf .rsi) (tf .rdx)
      (tf .rcx) (tf .r8) (tf .r9) = .ok (.returns value))
    (thread : Thread) (fs : Addr) (kernel : KernelState) :
    trap view fuel thread fs kernel tf =
      .ok (.returns kernel (Function.update tf .rax value)) := by
  rw [trap, if_neg (by rw [number]; decide), if_pos number, returns]
  rfl

/--
For every interrupted state and every vector, the stub and `alltraps` call
`trap` with a frame that holds that state, the vector and the error code or
zero; when `trap` returns and has left the frame alone, `trapret` and `iretq`
give the interrupted state back; and a system call that returns changes `rax`
only.
-/
theorem trap_round_trip (layout : Layout) (text : Text) (cpu : Cpu) {n : Nat}
    (bound : n < 256) (code : BitVec 64) (installed : cpu.idt = idt text) :
    let delivered := deliver n (hardwareErr n code) cpu
    let entry := enterTrap layout text n code cpu
    let frame := entry.regs .rdi
    delivered.rip = text.vectors n ∧
      ((vector text n).run delivered).rip = text.alltraps ∧
      AtTrap layout text cpu n ((hardwareErr n code).getD 0) entry ∧
      (tfAt entry.mem frame .trapno).toNat = n ∧
      (∀ back, Returned entry back →
        tfAt back.mem frame = tfAt entry.mem frame →
        back.rip = layout.trapret ∧ SameContext (trapret.run back) cpu) ∧
      (n = tSyscall → ∀ view fuel thread fs kernel value,
        syscall view fuel (cpu.regs .rax) (cpu.regs .rdi) (cpu.regs .rsi)
          (cpu.regs .rdx) (cpu.regs .rcx) (cpu.regs .r8) (cpu.regs .r9) =
            .ok (.returns value) →
        ∃ tf, trap view fuel thread fs kernel (tfAt entry.mem frame) =
            .ok (.returns kernel tf) ∧
          ∀ back, Returned entry back → tfAt back.mem frame = tf →
            back.rip = layout.trapret ∧
              SameContext (trapret.run back) (cpu.set .rax value)) := by
  intro delivered entry frame
  have atTrap : AtTrap layout text cpu n ((hardwareErr n code).getD 0) entry :=
    atTrap_enterTrap layout text cpu n code
  have gate : (cpu.idt n).handler = text.vectors n := by
    rw [installed, idt]
    by_cases isSyscall : n = tSyscall
    · rw [isSyscall, Function.update_self]
      rfl
    · rw [Function.update_of_ne isSyscall]
      rfl
  refine ⟨gate, rfl, atTrap, ?_, ?_, ?_⟩
  · rw [atTrap.tf]
    exact Nat.mod_eq_of_lt (by omega)
  · intro back returned kept
    exact atTrap.resume_same returned kept
  · intro isSyscall view fuel thread fs kernel value returns
    refine ⟨Function.update (tfAt entry.mem frame) .rax value, ?_, ?_⟩
    · rw [atTrap.tf]
      exact trap_syscall value (congrArg (BitVec.ofNat 64) isSyscall) returns _ _
        _
    · intro back returned written
      exact atTrap.resume_rax returned written

/-! ## A sample trap -/

def sampleText : Text where
  vectors n := 0xFFFFFFFF80111000 + BitVec.ofNat 64 (8 * n)
  alltraps := 0xFFFFFFFF80110080
  trap := 0xFFFFFFFF80110100
  exit := 0xFFFFFFFF80110200
  usysexit := 0xFFFFFFFF80112010
  usysexitInt := 0xFFFFFFFF80112017
  usysexitRet := 0xFFFFFFFF80112019

/-- A user process after `int $T_SYSCALL` with no valid number in `rax`. -/
def sampleUser : Cpu where
  regs
    | .rax => 99
    | .rsp => 0xFFFFFFFF8010BFF8
    | _ => 7
  rip := 0xFFFFFFFF80112044
  rflags := 0x202
  cs := 35
  ss := 43
  mem _ := 0
  idt := idt sampleText
  rsp0 := 0xFFFFFFFF80104000
  fsBase := 0xFFFFFFFF80101800

/-- The thread-local variables at the end of a page, `curproc` last. -/
def sampleThread : Thread where
  base := 0xFFFFFFFF80101800
  slot := 0

theorem sampleUser_cpl : sampleUser.cpl = 3 := by
  show (35#16 &&& 3#16 : BitVec 16).toNat = 3
  decide

/-- A system call that does not exist returns -1. -/
theorem trap_round_trip_no_such_call :
    ∃ entry back : Cpu,
      entry = enterTrap sampleLayout sampleText tSyscall 0 sampleUser ∧
      Returned entry back ∧
      SameContext (trapret.run back) (sampleUser.set .rax (-1)) := by
  let entry := enterTrap sampleLayout sampleText tSyscall 0 sampleUser
  let frame := entry.regs .rdi
  let back : Cpu :=
    { entry.set .rsp (entry.regs .rsp + 8) with
      rip := load64 entry.mem (entry.regs .rsp)
      mem := store64 entry.mem (frame + TrapField.rax.offset) (-1) }
  have returned : Returned entry back :=
    ⟨rfl, set_same entry .rsp _⟩
  have round := trap_round_trip sampleLayout sampleText sampleUser
    (show tSyscall < 256 by decide) 0 rfl
  rcases round.2.2.2.2.2 rfl (fun _ => none) 0 sampleThread 0
    (KernelState.zero { mem := fun _ => 0, nfreepages := 0, freelist := 0 })
    (-1) rfl with ⟨tf, handled, resumes⟩
  have written : tf = Function.update (tfAt entry.mem frame) .rax (-1) := by
    have number : tfAt entry.mem frame .trapno = BitVec.ofNat 64 tSyscall :=
      congrFun round.2.2.1.tf .trapno
    have call : tfAt entry.mem frame .rax = 99 :=
      congrFun round.2.2.1.tf .rax
    rw [trap_syscall (-1) number (by rw [call]; rfl)] at handled
    cases handled
    rfl
  refine ⟨entry, back, rfl, returned, (resumes back returned ?_).2⟩
  rw [written]
  exact tfAt_store _ _ .rax _

end Rt64.Kernel.Trap
