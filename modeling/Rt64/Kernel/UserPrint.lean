import Rt64.Kernel.TrapSafety
import Rt64.Kernel.Uart

/-!
# System calls from user code

`usyscall.S` makes a function of each system call: it puts the number into `rax` and
executes `int`.  The kernel finds the arguments in the trap frame, serves the call
and leaves the result there, and the function returns to its caller with it.

Here the way of `usysprint` is put together, from the call to the return, with the
console at its end.
-/

namespace Rt64.Kernel.UserPrint

open Rt64.Lib.ByteMemory
open Rt64.Lib.Numeral
open Rt64.Lib.Uart8250
open Rt64.Lib.X64
open Rt64.Include.Defs
open Rt64.Include.Access
open Rt64.Kernel.Process
open Rt64.Kernel.Spawn
open Rt64.Kernel.Trap
open Rt64.Kernel.Console (StringAt nullText putString_eq)
open Rt64.Kernel.ConsoleFormat
open Rt64.Kernel.Cga (Tape)
open Rt64.Kernel.Uart (Console Open chars cprintf)

/-! ## The stubs -/

/-- The addresses of the `int` and the `ret` of a function. -/
structure Stub where
  int : Addr
  ret : Addr

/-- `SYSCALL(name)`, up to its `ret`. -/
def syscallStub (num : BitVec 64) (stub : Stub) : Routine where
  body := [.movImm num .rax]
  last := .int tSyscall stub.int stub.ret

def usysprint (stub : Stub) : Routine :=
  syscallStub sysPrintNum stub

/-- The `ret` of a function. -/
def stubRet : Routine where
  body := []
  last := .ret

example (text : Text) :
    usysexit text = syscallStub sysExitNum ⟨text.usysexitInt, text.usysexitRet⟩ :=
  rfl

/-- `sys_print`, with what it does to the console; `fmt` is the literal `"%s"`. -/
def sysPrint (pace : Pace) (view : View) (fuel : Nat) (fmt a0 : Addr)
    (console : Console) : Except Stop (BitVec 64 × Console) := do
  let console ← cprintf pace fuel ⟨view, fmt, fun _ => a0⟩ console
  return (0, console)

/-! ## The argument -/

/-- The text that is printed for a string. -/
def TextOf (view : View) (s : Addr) (text : List Byte) : Prop :=
  s = 0 ∧ text = nullText ∨ s ≠ 0 ∧ StringAt view s text

section Argument

variable {view : View} {s : Addr} {text : List Byte}

theorem cprintfString_of_textOf (textOf : TextOf view s text) {fuel : Nat}
    (enough : text.length < fuel) : cprintfString view fuel s = .ok text := by
  rcases textOf with ⟨null, rfl⟩ | ⟨nonnull, stored⟩
  · exact if_pos null
  · rw [cprintfString, if_neg nonnull, mapError_eq_ok]
    exact putString_eq stored enough

end Argument

/-! ## The way into the kernel -/

section Entry

variable (layout : Layout) (text : Text) (stub : Stub) (num : BitVec 64)
variable {cpu : Cpu}

/-- The state that the kernel is to go back to. -/
def atStubRet (cpu : Cpu) : Cpu :=
  { cpu.set .rax num with rip := stub.ret }

/-- The gate of the system calls is open to user code. -/
theorem syscallStub_run (user : cpu.cpl = 3) (installed : cpu.idt = idt text) :
    (syscallStub num stub).run cpu =
      deliver tSyscall none (atStubRet stub num cpu) := by
  have allowed : cpu.cpl ≤ (cpu.idt tSyscall).dpl := by
    rw [user, installed, idt, Function.update_self]
    exact Nat.le_refl 3
  exact if_pos allowed

theorem syscallStub_enters (user : cpu.cpl = 3) (installed : cpu.idt = idt text) :
    (alltraps layout text).run ((vector text tSyscall).run
        ((syscallStub num stub).run cpu)) =
      enterTrap layout text tSyscall 0 (atStubRet stub num cpu) := by
  rw [enterTrap, show hardwareErr tSyscall 0 = none from rfl,
    syscallStub_run text stub num user installed]

/-- The entry writes to the kernel stack only. -/
theorem load64_enterTrap {n : Nat} {code : BitVec 64} {address : Addr}
    (apart : Apart (frameAddr cpu - 8) 184 address 8) :
    load64 (enterTrap layout text n code cpu).mem address =
      load64 cpu.mem address := by
  apply load64_congr
  intro target inside
  exact enterTrap_outside layout text cpu n code fun within =>
    apart target within inside

/-- The function returns to its caller with the result. -/
theorem stubRet_run {resumed : Cpu} {value : BitVec 64} {caller : Addr}
    (same : SameContext resumed ((atStubRet stub num cpu).set .rax value))
    (top : load64 resumed.mem (cpu.regs .rsp) = caller) :
    (stubRet.run resumed).rip = caller ∧
      (stubRet.run resumed).regs =
        Function.update (Function.update cpu.regs .rax value) .rsp
          (cpu.regs .rsp + 8) ∧
      (stubRet.run resumed).rflags = cpu.rflags ∧
      (stubRet.run resumed).cs = cpu.cs ∧ (stubRet.run resumed).ss = cpu.ss := by
  have regs : resumed.regs = Function.update cpu.regs .rax value :=
    same.regs.trans (Function.update_idem ..)
  have rsp : resumed.regs .rsp = cpu.regs .rsp := by
    rw [regs]
    rfl
  refine ⟨?_, ?_, same.rflags, same.cs, same.ss⟩
  · show load64 resumed.mem (resumed.regs .rsp) = caller
    rw [rsp, top]
  · show Function.update resumed.regs .rsp (resumed.regs .rsp + 8) = _
    rw [rsp, regs]

end Entry

/--
A user function calls `usysprint` with a string that the kernel can read, or with a
null pointer.  The kernel gets the string on the screen and, if the port is fast
enough, on the serial line.  If the handler leaves the frame and the word on top of
the user's stack as they are, except for the result, the function returns to its
caller with a zero in `rax`; all other registers and the flags are as they were.
-/
theorem user_print_round_trip (pace : Pace) (layout : Layout) (text : Text)
    (stub : Stub) {cpu : Cpu} (user : cpu.cpl = 3) (installed : cpu.idt = idt text)
    (apart : Apart (frameAddr cpu - 8) 184 (cpu.regs .rsp) 8)
    {view : View} {fmt : Addr} (nonnull : fmt ≠ 0)
    (literal : StringAt view fmt (ascii "%s")) {out : List Byte}
    (textOf : TextOf view (cpu.regs .rdi) out) {device : Option Uart} {tape : Tape}
    {console : Console} (isOpen : Open device tape console)
    (thread : Trap.Thread) (kernel : KernelState) :
    let entry := (alltraps layout text).run ((vector text tSyscall).run
      ((usysprint stub).run cpu))
    let tf := tfAt entry.mem (entry.regs .rdi)
    ∃ bound console', entry.rip = text.trap ∧
      (∀ fuel ≥ bound,
        trap view fuel thread entry.fsBase kernel tf =
            .ok (.returns kernel (Function.update tf .rax 0)) ∧
          sysPrint pace view fuel fmt (tf .rdi) console = .ok (0, console')) ∧
      Open (device.map (sendAll pace 128 out)) ((chars out).foldl Tape.put tape)
        console' ∧
      (∀ uart, device = some uart → uart.busy ≤ 128 → (∀ n, pace.delay n ≤ 128) →
        ∃ uart', console'.serial.device = some uart' ∧
          uart'.sent = uart.sent ++ out) ∧
      ∀ back, Returned entry back →
        tfAt back.mem (entry.regs .rdi) = Function.update tf .rax 0 →
        load64 back.mem (cpu.regs .rsp) = load64 entry.mem (cpu.regs .rsp) →
        let after := stubRet.run (trapret.run back)
        back.rip = layout.trapret ∧ (trapret.run back).rip = stub.ret ∧
          after.rip = load64 cpu.mem (cpu.regs .rsp) ∧
          after.regs = Function.update (Function.update cpu.regs .rax 0) .rsp
            (cpu.regs .rsp + 8) ∧
          after.rflags = cpu.rflags ∧ after.cs = cpu.cs ∧ after.ss = cpu.ss := by
  intro entry tf
  let called := atStubRet stub sysPrintNum cpu
  have entered : entry = enterTrap layout text tSyscall 0 called :=
    syscallStub_enters layout text stub sysPrintNum user installed
  have atTrap := atTrap_enterTrap layout text called tSyscall 0
  rw [← entered] at atTrap
  have isFrame : tf = frameOf called tSyscall 0 := atTrap.tf
  have argument : tf .rdi = cpu.regs .rdi := by
    rw [isFrame]
    rfl
  rcases prints_cprintfString nonnull literal
    (cprintfString_of_textOf textOf (Nat.lt_succ_self _)) with ⟨bound, formats⟩
  rcases @Open.cprintf pace _ _ _ isOpen
      ⟨view, fmt, fun _ => cpu.regs .rdi⟩ _ _ ⟨bound, formats⟩ with
    ⟨bound', console', isOpen', printed⟩
  refine ⟨max bound' (out.length + 1), console', atTrap.rip, ?_, isOpen', ?_, ?_⟩
  · intro fuel enough
    refine ⟨?_, ?_⟩
    · refine trap_syscall 0 (congrFun isFrame .trapno) ?_ thread _ kernel
      rw [isFrame]
      show Trap.syscall view fuel sysPrintNum (cpu.regs .rdi) _ _ _ _ _ = _
      rw [Trap.syscall, if_pos rfl, Trap.sysPrint,
        cprintfString_of_textOf textOf (by omega)]
      rfl
    · rw [argument, sysPrint, printed fuel (by omega)]
      rfl
  · rintro uart rfl free delays
    exact ⟨_, by rw [isOpen'.serial]; rfl, sendAll_sent out delays free⟩
  · intro back returned written kept after
    have mem : (trapret.run back).mem = back.mem := by
      rw [(atTrap.resume returned).2]
      rfl
    rcases atTrap.resume_rax returned written with ⟨rip, same⟩
    have top : load64 (trapret.run back).mem (cpu.regs .rsp) =
        load64 cpu.mem (cpu.regs .rsp) := by
      rw [mem, kept, entered]
      exact @load64_enterTrap layout text called _ _ _ apart
    exact ⟨rip, same.rip, stubRet_run stub sysPrintNum same top⟩

/-- The literal of `sys_print` and the message of `uhello`. -/
def helloView : View := fun address =>
  [(0x1000, ascii "%s" ++ [0]), (0x2000, ascii "User hello world\n" ++ [0])].findSome?
    fun (base, bytes) => bytes[(address - base).toNat]?

abbrev helloStack : Addr := 0xFFFFFFFF8010BFF8

/-- The state of `uhello` when it has called `usysprint`. -/
def helloUser : Cpu :=
  { sampleUser.set .rdi 0x2000 with
    mem := store64 sampleUser.mem helloStack 0xFFFFFFFF80112100 }

def helloStub : Stub where
  int := 0xFFFFFFFF80112027
  ret := 0xFFFFFFFF80112029

theorem user_print_round_trip_hello :
    ∃ entry back uart, ∃ console' : Console,
      entry = (alltraps sampleLayout sampleText).run
        ((vector sampleText tSyscall).run ((usysprint helloStub).run helloUser)) ∧
      Returned entry back ∧
      (∃ fuel, sysPrint Uart.samplePace helloView fuel 0x1000 0x2000
        Uart.sampleConsole = .ok (0, console')) ∧
      console'.serial.device = some uart ∧
      uart.sent = ascii "User hello world\n" ∧
      (stubRet.run (trapret.run back)).rip = 0xFFFFFFFF80112100 := by
  let entry := (alltraps sampleLayout sampleText).run
    ((vector sampleText tSyscall).run ((usysprint helloStub).run helloUser))
  let frame := entry.regs .rdi
  let back : Cpu :=
    { entry.set .rsp (entry.regs .rsp + 8) with
      rip := load64 entry.mem (entry.regs .rsp)
      mem := store64 entry.mem (frame + TrapField.rax.offset) 0 }
  have top : frameAddr helloUser = 0xFFFFFFFF80103F50 := by decide
  have apart : Apart (frameAddr helloUser - 8) 184 (helloUser.regs .rsp) 8 := by
    intro address inFrame inStack
    have rsp : helloUser.regs .rsp = helloStack := rfl
    rw [top] at inFrame
    rw [rsp] at inStack
    simp only [Within] at inFrame inStack
    bv_omega
  have textOf : TextOf helloView (helloUser.regs .rdi)
      (ascii "User hello world\n") :=
    Or.inr ⟨by decide, by decide +kernel⟩
  have entered := syscallStub_enters sampleLayout sampleText helloStub
    sysPrintNum (show helloUser.cpl = 3 from sampleUser_cpl) rfl
  have atTrap := atTrap_enterTrap sampleLayout sampleText
    (atStubRet helloStub sysPrintNum helloUser) tSyscall 0
  rw [← entered] at atTrap
  have placed : frame = 0xFFFFFFFF80103F50 := atTrap.rdi.trans top
  have argument : tfAt entry.mem frame .rdi = 0x2000 := congrFun atTrap.tf .rdi
  have kept : load64 back.mem (helloUser.regs .rsp) =
      load64 entry.mem (helloUser.regs .rsp) := by
    refine load64_store64_apart _ _ _ _ ?_
    intro address inStack inFrame
    have rsp : helloUser.regs .rsp = helloStack := rfl
    have offset : TrapField.rax.offset = 0 := rfl
    rw [rsp] at inStack
    rw [placed, offset] at inFrame
    simp only [Within] at inFrame inStack
    bv_omega
  rcases @user_print_round_trip Uart.samplePace sampleLayout sampleText helloStub
      helloUser sampleUser_cpl rfl apart helloView 0x1000 (by decide)
      (by decide +kernel) _ textOf _ _ _ Uart.sampleConsole_open sampleThread
      (KernelState.zero { mem := fun _ => 0, nfreepages := 0, freelist := 0 }) with
    ⟨bound, console', _, serves, _, sends, resumes⟩
  have returned : Returned entry back := ⟨rfl, set_same entry .rsp _⟩
  have after := resumes back returned (tfAt_store _ _ .rax _) kept
  have printed := (serves bound (Nat.le_refl _)).2
  rw [argument] at printed
  rcases sends Uart.sampleUart rfl (by decide) (fun _ => (by decide : 3 ≤ 128))
    with ⟨uart, found, sent⟩
  refine ⟨entry, back, uart, console', rfl, returned, ⟨bound, printed⟩, found,
    sent.trans (List.nil_append _), after.2.2.1.trans ?_⟩
  exact load64_store64_same _ _ _

end Rt64.Kernel.UserPrint
