import Rt64.Kernel.TrapSafety

/-!
# The local APIC

`lapicinit` programs three vectors into the local APIC: the timer's, the one for
errors and the spurious one.  `trap` has a case for the first; the other two are
left to its default case, which is meant for exceptions.
-/

namespace Rt64.Kernel.Lapic

open Rt64.Lib.ByteMemory
open Rt64.Lib.Transition
open Rt64.Lib.X64
open Rt64.Include.Defs
open Rt64.Kernel.Process
open Rt64.Kernel.Spawn
open Rt64.Kernel.Isolation
open Rt64.Kernel.Processor
open Rt64.Kernel.Rounds
open Rt64.Kernel.Scheduler
open Rt64.Kernel.Trap
open Rt64.Kernel.Main
open Rt64.Kernel.ProcessTable
open Rt64.Kernel.ProcessLife
open Rt64.Kernel.TrapSafety

/-! ## Registers -/

/-- The registers, by their index as 32-bit words. -/
abbrev Registers : Type := Nat → BitVec 32

abbrev idIndex : Nat := 0x0020 / 4
abbrev verIndex : Nat := 0x0030 / 4
abbrev tprIndex : Nat := 0x0080 / 4
abbrev eoiIndex : Nat := 0x00B0 / 4
abbrev svrIndex : Nat := 0x00F0 / 4
abbrev esrIndex : Nat := 0x0280 / 4
abbrev icrloIndex : Nat := 0x0300 / 4
abbrev icrhiIndex : Nat := 0x0310 / 4
abbrev timerIndex : Nat := 0x0320 / 4
abbrev pcintIndex : Nat := 0x0340 / 4
abbrev lint0Index : Nat := 0x0350 / 4
abbrev lint1Index : Nat := 0x0360 / 4
abbrev errorIndex : Nat := 0x0370 / 4
abbrev ticrIndex : Nat := 0x0380 / 4
abbrev tdcrIndex : Nat := 0x03E0 / 4

/-- `ENABLE` in `SVR`. -/
abbrev enable : BitVec 32 := 0x100
abbrev x1 : BitVec 32 := 0xB
abbrev periodic : BitVec 32 := 0x20000
abbrev masked : BitVec 32 := 0x10000
abbrev init : BitVec 32 := 0x500
abbrev level : BitVec 32 := 0x8000
abbrev bcast : BitVec 32 := 0x80000
abbrev lapicTimerPeriod : BitVec 32 := 10000000
/-- `LAPIC_TIMER_PERIOD` as a `u64`. -/
abbrev period : BitVec 64 := lapicTimerPeriod.setWidth 64

abbrev irqError : Nat := 19
abbrev irqSpurious : Nat := 31

def lapicw (index : Nat) (value : BitVec 32) (lapic : Registers) : Registers :=
  Function.update lapic index value

/-- The local vector table has an entry for the performance counters. -/
def HasPcint (lapic : Registers) : Prop :=
  4#32 ≤ (lapic verIndex >>> 16) &&& 0xFF

instance (lapic : Registers) : Decidable (HasPcint lapic) :=
  inferInstanceAs (Decidable (_ ≤ _))

/-- `lapicinit`; the device ends the wait for `DELIVS` after the write of
`ICRLO`. -/
def lapicinit (lapic : Registers) : Registers :=
  let lapic := lapicw svrIndex
    (enable ||| BitVec.ofNat 32 (tIrq0 + irqSpurious)) lapic
  let lapic := lapicw tdcrIndex x1 lapic
  let lapic := lapicw timerIndex
    (periodic ||| BitVec.ofNat 32 (tIrq0 + irqTimer)) lapic
  let lapic := lapicw ticrIndex lapicTimerPeriod lapic
  let lapic := lapicw lint0Index masked lapic
  let lapic := lapicw lint1Index masked lapic
  let lapic :=
    if HasPcint lapic then lapicw pcintIndex masked lapic else lapic
  let lapic := lapicw errorIndex (BitVec.ofNat 32 (tIrq0 + irqError)) lapic
  let lapic := lapicw esrIndex 0 lapic
  let lapic := lapicw esrIndex 0 lapic
  let lapic := lapicw eoiIndex 0 lapic
  let lapic := lapicw icrhiIndex 0 lapic
  let lapic := lapicw icrloIndex (bcast ||| init ||| level) lapic
  lapicw tprIndex 0 lapic

/-- `lapicid`; `rflags` is the processor's. -/
def lapicid (lapic : Registers) (rflags : BitVec 64) :
    Except Halt (BitVec 32) :=
  if rflags &&& flIf ≠ 0 then .error (.panic .lapicid "lapicid: IF is not 0")
  else .ok (lapic idIndex >>> 24)

/-! ## Armed vectors -/

def vectorOf (value : BitVec 32) : Nat :=
  (value &&& 0xFF).toNat

/-- The local vector table. -/
def vectorTable (lapic : Registers) : List Nat :=
  [timerIndex, lint0Index, lint1Index, errorIndex] ++
    if HasPcint lapic then [pcintIndex] else []

/-- The vectors that an enabled local APIC can deliver: the spurious one, and
those of the table that are not masked. -/
def armed (lapic : Registers) : List Nat :=
  if lapic svrIndex &&& enable = 0 then []
  else
    vectorOf (lapic svrIndex) ::
      ((vectorTable lapic).filter fun index => lapic index &&& masked = 0).map
        fun index => vectorOf (lapic index)

theorem hasPcint_congr {left right : Registers}
    (same : left verIndex = right verIndex) :
    HasPcint left ↔ HasPcint right := by
  rw [HasPcint, HasPcint, same]

theorem lapicinit_ver (lapic : Registers) :
    lapicinit lapic verIndex = lapic verIndex := by
  unfold lapicinit
  split <;> rfl

theorem mem_armed_lapicinit (lapic : Registers) (n : Nat) :
    n ∈ armed (lapicinit lapic) ↔
      n = tIrq0 + irqTimer ∨ n = tIrq0 + irqError ∨ n = tIrq0 + irqSpurious := by
  show n ∈ armed (lapicinit lapic) ↔ n = 32 ∨ n = 51 ∨ n = 63
  have table : vectorTable (lapicinit lapic) = vectorTable lapic := by
    have entries := if_congr (hasPcint_congr (lapicinit_ver lapic))
      (rfl : [pcintIndex] = [pcintIndex]) (rfl : [] = [])
    rw [vectorTable, vectorTable, entries]
  have common : lapicinit lapic svrIndex = 0x13F ∧
      lapicinit lapic timerIndex = 0x20020 ∧
      lapicinit lapic lint0Index = masked ∧
      lapicinit lapic lint1Index = masked ∧
      lapicinit lapic errorIndex = 0x33 := by
    unfold lapicinit
    split <;> exact ⟨rfl, rfl, rfl, rfl, rfl⟩
  have counters (has : HasPcint lapic) :
      lapicinit lapic pcintIndex = masked := by
    unfold lapicinit
    split
    · rfl
    · rename_i hasNot
      -- the version is not among the registers written before the test
      exact absurd ((hasPcint_congr rfl).mpr has) hasNot
  rcases common with ⟨svr, timer, lint0, lint1, error⟩
  rw [armed, table, svr, if_neg (by decide)]
  by_cases has : HasPcint lapic
  · simp only [vectorTable, if_pos has, List.cons_append, List.nil_append,
      List.filter_cons, timer, lint0, lint1, error, counters has]
    simp [vectorOf, timer, error]
    omega
  · simp only [vectorTable, if_neg has, List.append_nil, List.filter_cons,
      timer, lint0, lint1, error]
    simp [vectorOf, timer, error]
    omega

/-! ## Interrupts -/

/-- `trap` for the vector of the timer. -/
theorem trap_timer {n : Nat} (isTimer : n = tIrq0 + irqTimer) (cpu : Cpu)
    (err : BitVec 64) (view : Addr → Option Byte) (fuel : Nat)
    (thread : Trap.Thread) (fs : Addr) (kernel : KernelState) :
    trap view fuel thread fs kernel (Trap.frameOf cpu n err) =
      .ok (.returns (timerTrap kernel) (Trap.frameOf cpu n err)) := by
  have number : Trap.frameOf cpu n err .trapno =
      BitVec.ofNat 64 (tIrq0 + irqTimer) := congrArg (BitVec.ofNat 64) isTimer
  rw [trap, if_pos number]

/-- A vector for which `trap` has no case is not returned from. -/
theorem trap_unknown {tf tf' : TrapField → BitVec 64} {kernel kernel' : KernelState}
    (notTimer : tf .trapno ≠ BitVec.ofNat 64 (tIrq0 + irqTimer))
    (notSyscall : tf .trapno ≠ BitVec.ofNat 64 tSyscall)
    (view : Addr → Option Byte) (fuel : Nat) (thread : Trap.Thread) (fs : Addr) :
    trap view fuel thread fs kernel tf ≠ .ok (.returns kernel' tf') := by
  intro returned
  rw [trap, if_neg notTimer, if_neg notSyscall, bind_eq_ok] at returned
  rcases returned with ⟨isNull, _, returned⟩
  split at returned
  · cases returned
  · rw [callExit, bind_eq_ok] at returned
    rcases returned with ⟨isNull', _, returned⟩
    cases isNull' <;> cases returned

/--
In every run of the kernel and wherever interrupts are on, in kernel or in user
mode, an interrupt that the local APIC can deliver is handled exactly if it is
neither the error nor the spurious one: `trap` returns to the interrupted context,
and what has changed is the number of ticks and the count of the processes that
sleep, of which those at the end of their count are now runnable.
-/
theorem armed_interrupt_harmless {layout : Layout} {machine : Machine}
    (started : Started layout machine)
    (unmasked : machine.kernel.interruptible = true) (lapic : Registers)
    {n : Nat} (isArmed : n ∈ armed (lapicinit lapic))
    (text : Text) (cpu : Cpu) (code : BitVec 64) (view : Addr → Option Byte)
    (fuel : Nat) (thread : Trap.Thread) :
    let kernel := machine.kernel
    let entry := enterTrap layout text n code cpu
    let frame := entry.regs .rdi
    let tf := tfAt entry.mem frame
    (∃ kernel', trap view fuel thread entry.fsBase kernel tf =
        .ok (.returns kernel' tf) ∧
      step layout .tick machine = some (.ok { machine with kernel := kernel' }) ∧
      Started layout { machine with kernel := kernel' } ∧
      kernel' = { kernel with
        ticks := kernel.ticks + 1
        procs := fun p => if p < kernel.nproc then tickEntry (kernel.procs p)
          else kernel.procs p } ∧
      (∀ p, (kernel'.procs p).state = (kernel.procs p).state ∨
        (kernel.procs p).state = .sleeping ∧
          (kernel'.procs p).state = .runnable) ∧
      ∀ back, Returned entry back → tfAt back.mem frame = tf →
        back.rip = layout.trapret ∧ SameContext (trapret.run back) cpu) ↔
    n ≠ tIrq0 + irqError ∧ n ≠ tIrq0 + irqSpurious := by
  intro kernel entry frame tf
  have atTrap := atTrap_enterTrap layout text cpu n code
  have isFrame : tf = Trap.frameOf cpu n ((hardwareErr n code).getD 0) :=
    atTrap.tf
  have number : tf .trapno = BitVec.ofNat 64 n := congrFun isFrame .trapno
  constructor
  · rintro ⟨kernel', returned, _⟩
    constructor
    · rintro rfl
      exact trap_unknown (by rw [number]; decide) (by rw [number]; decide) _ _ _ _
        returned
    · rintro rfl
      exact trap_unknown (by rw [number]; decide) (by rw [number]; decide) _ _ _ _
        returned
  · intro expected
    have isTimer : n = tIrq0 + irqTimer := by
      rcases (mem_armed_lapicinit lapic n).mp isArmed with
        timer | error | spurious
      · exact timer
      · exact absurd error expected.1
      · exact absurd spurious expected.2
    have ticks : step layout .tick machine =
        some (.ok { machine with kernel := timerTrap kernel }) := by
      rw [step, if_pos unmasked]
    refine ⟨timerTrap kernel, ?_, ticks, started.path (.single ticks), ?_, ?_, ?_⟩
    · rw [isFrame]
      exact trap_timer isTimer cpu _ view fuel _ _ kernel
    · have procs := funext (foldl_tickProc kernel.procs kernel.nproc)
      rw [timerTrap, procs]
    · intro p
      exact (core kernel).tick_state p
    · intro back returned kept
      exact atTrap.resume_same returned kept

/-- The timer interrupts the first process. -/
theorem armed_interrupt_harmless_timer :
    ∃ machine machine', Started sampleLayout machine ∧
      machine.thread = 1 ∧ machine.kernel.interruptible = true ∧
      tIrq0 + irqTimer ∈ armed (lapicinit fun _ => 0) ∧
      step sampleLayout .tick machine = some (.ok machine') ∧
      machine'.kernel.ticks = machine.kernel.ticks + 1 := by
  rcases @sample_running (.spawnuser sampleDesc) sampleDesc_prioValid with
    ⟨machine, started, thread, _, _, _, unmasked, _⟩
  have isArmed : tIrq0 + irqTimer ∈ armed (lapicinit fun _ => 0) :=
    (mem_armed_lapicinit _ _).mpr (Or.inl rfl)
  rcases (armed_interrupt_harmless started unmasked _ isArmed sampleText
    sampleUser 0 (fun _ => none) 0 sampleThread).mpr (by decide) with
    ⟨kernel', _, ticks, _, shape, _⟩
  refine ⟨machine, _, started, thread, unmasked, isArmed, ticks, ?_⟩
  show kernel'.ticks = _
  rw [shape]

/-- A kernel thread. -/
def sampleKernelMode : Cpu :=
  { sampleUser with cs := 8, ss := 16 }

/-- An error or spurious interrupt brings the kernel down when it arrives in
kernel mode, and ends the process when it arrives in user mode. -/
theorem error_and_spurious_interrupts_harm :
    ∃ inKernel inUser cause exiting, Started sampleLayout inKernel ∧
      Started sampleLayout inUser ∧ inUser.thread = 1 ∧
      inKernel.kernel.interruptible = true ∧
      inUser.kernel.interruptible = true ∧
      sampleKernelMode.cpl = 0 ∧ sampleUser.cpl = 3 ∧
      (∀ lapic n, n = tIrq0 + irqError ∨ n = tIrq0 + irqSpurious →
        n ∈ armed (lapicinit lapic) ∧ ∀ view fuel,
          let entry := enterTrap sampleLayout sampleText n 0 sampleKernelMode
          let entry' := enterTrap sampleLayout sampleText n 0 sampleUser
          trap view fuel sampleThread entry.fsBase inKernel.kernel
              (tfAt entry.mem (entry.regs .rdi)) = .error trapPanic ∧
            trap view fuel sampleThread entry'.fsBase inUser.kernel
              (tfAt entry'.mem (entry'.regs .rdi)) = .ok (.exits killed)) ∧
      step sampleLayout (.call (.fault cause)) inUser = some (.ok exiting) ∧
      ∀ steps last, Path (step sampleLayout) exiting steps last →
        5 ≤ runs exiting steps →
          (last.kernel.procs 1).state = .exited := by
  rcases @sample_running (.spawn sampleDesc) sampleDesc_prioValid with
    ⟨inKernel, started, _, _, _, _, unmasked, _⟩
  rcases @sample_running (.spawnuser sampleDesc) sampleDesc_prioValid with
    ⟨inUser, started', thread, resting, _, _, unmasked', _⟩
  rcases exitOp_step started' resting (by rw [thread]; decide) 51 killed
    sampleFault with ⟨exiting, called⟩
  have kernelMode : sampleKernelMode.cpl = 0 := by
    show (8#16 &&& 3#16 : BitVec 16).toNat = 0
    decide
  have begun {machine : Machine} (started : Started sampleLayout machine)
      (view : Addr → Option Byte) :
      curprocNull view sampleThread sampleThread.base machine.kernel =
        .ok false := by
    rw [curprocNull, if_pos rfl, beq_false_of_ne started.nproc_ne_zero]
  refine ⟨inKernel, inUser, _, exiting, started, started', thread, unmasked,
    unmasked', kernelMode, sampleUser_cpl, ?_, called, ?_⟩
  · intro lapic n isOther
    refine ⟨(mem_armed_lapicinit lapic n).mpr (Or.inr isOther), ?_⟩
    intro view fuel
    have frames (cpu : Cpu) :=
      (atTrap_enterTrap sampleLayout sampleText cpu n 0).tf
    have number (cpu : Cpu) (err : BitVec 64) :
        Trap.frameOf cpu n err .trapno ≠ BitVec.ofNat 64 (tIrq0 + irqTimer) ∧
          Trap.frameOf cpu n err .trapno ≠ BitVec.ofNat 64 tSyscall := by
      show BitVec.ofNat 64 n ≠ _ ∧ BitVec.ofNat 64 n ≠ _
      rcases isOther with rfl | rfl <;> decide
    dsimp only
    rw [frames, frames, enterTrap_fsBase, enterTrap_fsBase]
    constructor
    · rw [trap, if_neg (number _ _).1, if_neg (number _ _).2]
      show (curprocNull _ _ sampleThread.base _ >>= _) = _
      rw [begun started]
      exact if_pos (show (false || (8#16).setWidth 64 &&& 3#64 == 0#64) = true by
        decide)
    · rw [trap, if_neg (number _ _).1, if_neg (number _ _).2]
      show (curprocNull _ _ sampleThread.base _ >>= _) = _
      rw [begun started']
      refine (if_neg (show ¬ (false || (35#16).setWidth 64 &&& 3#64 == 0#64) = true
        by decide)).trans ?_
      exact callExit_base view sampleThread started'.nproc_ne_zero killed
  · intro steps last path late
    have ends := exits_alone started'
      (@exitValue_exitOp 51 killed sampleFault fun _ => rfl) called path
    have gone := (ends.2.2 late).1
    rwa [thread] at gone

end Rt64.Kernel.Lapic
