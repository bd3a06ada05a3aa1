import Rt64.Kernel.Scheduler
import Rt64.Kernel.Switch

/-!
# Threads on a processor with registers and memory

The machine of the scheduler leaves out what a thread computes and puts the rest
of its statements aside on a switch.  Here it is accompanied by a processor.  A
thread may change the registers and write to memory as it likes, but for the
saved contexts and for the stacks of the other threads, and at a switch of
`sched` or `idlemain` the processor runs `swtch`.

A thread that is off the processor keeps its context and its stack, so it is
taken up as it was left.
-/

namespace Rt64.Kernel.Threads

open Rt64.Lib.ByteMemory
open Rt64.Lib.X64
open Rt64.Include.Defs
open Rt64.Kernel.Process
open Rt64.Kernel.Spawn
open Rt64.Kernel.Switch
open Rt64.Kernel.Processor
open Rt64.Kernel.Rounds
open Rt64.Kernel.Scheduler

/-! ## Who owns which memory -/

/-- The stacks of the threads: the idle process stays on the stack that it was
booted on, the others have their entry of `kstacks`. -/
structure Stacks (layout : Layout) where
  idle : Addr
  idleSize : Nat
  /-- There is room for a return address. -/
  room : 8 ≤ idleSize
  small : idleSize < 2 ^ 64
  procsKstacks : Apart layout.procs 1152 layout.kstacks 32768
  idleProcs : Apart idle idleSize layout.procs 1152
  idleKstacks : Apart idle idleSize layout.kstacks 32768

namespace Stacks

variable {layout : Layout} (areas : Stacks layout)

def base (t : Nat) : Addr :=
  if t = 0 then areas.idle else kstackAddr layout t

def size (t : Nat) : Nat :=
  if t = 0 then areas.idleSize else 4096

def InStack (t : Nat) (address : Addr) : Prop :=
  Within (areas.base t) (areas.size t) address

/-- The saved context and the stack of a thread. -/
def Owned (t : Nat) (address : Addr) : Prop :=
  Within (ctxAddr layout t) 72 address ∨ areas.InStack t address

/-- The word at the address lies in the stack of the thread. -/
def WordIn (t : Nat) (address : Addr) : Prop :=
  ∀ place, Within address 8 place → areas.InStack t place

section Apart

variable {t u : Nat} (tBound : t < maxProc) (uBound : u < maxProc)
variable {address : Addr}

theorem inStack_cases (bound : t < maxProc) (inside : areas.InStack t address) :
    t = 0 ∧ Within areas.idle areas.idleSize address ∨
      t ≠ 0 ∧ Within (kstackAddr layout t) 4096 address ∧
        Within layout.kstacks 32768 address := by
  unfold InStack base size at inside
  by_cases isIdle : t = 0
  · rw [if_pos isIdle, if_pos isIdle] at inside
    exact Or.inl ⟨isIdle, inside⟩
  · rw [if_neg isIdle, if_neg isIdle] at inside
    exact Or.inr ⟨isIdle, inside,
      within_kstacks_of_kstack layout bound inside⟩

include tBound uBound

theorem ctx_not_inStack (inCtx : Within (ctxAddr layout t) 72 address) :
    ¬ areas.InStack u address := by
  intro inside
  have inProcs := within_procs_of_ctx layout tBound inCtx
  rcases areas.inStack_cases uBound inside with ⟨_, inIdle⟩ | ⟨_, _, inKstacks⟩
  · exact areas.idleProcs address inIdle inProcs
  · exact areas.procsKstacks address inProcs inKstacks

variable (different : t ≠ u)
include different

omit areas in
theorem ctx_apart_ctx : Apart (ctxAddr layout t) 72 (ctxAddr layout u) 72 := by
  have tSmall : t < 8 := tBound
  have uSmall : u < 8 := uBound
  rcases Nat.lt_or_gt_of_ne different with before | after
  · exact apart_of_offsets layout.procs (by omega) (by omega)
  · exact (apart_of_offsets layout.procs (by omega) (by omega)).symm

omit areas in
theorem kstack_apart_kstack :
    Apart (kstackAddr layout t) 4096 (kstackAddr layout u) 4096 := by
  have tSmall : t < 8 := tBound
  have uSmall : u < 8 := uBound
  rcases Nat.lt_or_gt_of_ne different with before | after
  · exact apart_of_offsets layout.kstacks (by omega) (by omega)
  · exact (apart_of_offsets layout.kstacks (by omega) (by omega)).symm

theorem inStack_apart (inside : areas.InStack t address) :
    ¬ areas.InStack u address := by
  intro inside'
  rcases areas.inStack_cases tBound inside with
    ⟨isIdle, inIdle⟩ | ⟨_, inOwn, inKstacks⟩
  · rcases areas.inStack_cases uBound inside' with
      ⟨isIdle', _⟩ | ⟨_, _, inKstacks⟩
    · exact different (isIdle.trans isIdle'.symm)
    · exact areas.idleKstacks address inIdle inKstacks
  · rcases areas.inStack_cases uBound inside' with
      ⟨_, inIdle⟩ | ⟨_, inOwn', _⟩
    · exact areas.idleKstacks address inIdle inKstacks
    · exact kstack_apart_kstack tBound uBound different address inOwn inOwn'

theorem owned_apart (owned : areas.Owned t address) :
    ¬ areas.Owned u address := by
  intro owned'
  rcases owned with inCtx | inStack
  · rcases owned' with inCtx' | inStack'
    · exact ctx_apart_ctx tBound uBound different address inCtx inCtx'
    · exact areas.ctx_not_inStack tBound uBound inCtx inStack'
  · rcases owned' with inCtx' | inStack'
    · exact areas.ctx_not_inStack uBound tBound inCtx' inStack
    · exact areas.inStack_apart tBound uBound different inStack inStack'

end Apart

end Stacks

/-! ## A switch -/

/-- The processor at a call of `swtch` from the thread `old` to the thread
`new`, whose saved stack pointer points into its stack. -/
structure Switching {layout : Layout} (areas : Stacks layout) (old new : Nat)
    (cpu : Cpu) : Prop where
  oldBound : old < maxProc
  newBound : new < maxProc
  different : old ≠ new
  rdi : cpu.regs .rdi = ctxAddr layout old
  rsi : cpu.regs .rsi = ctxAddr layout new
  slot : areas.WordIn old (cpu.regs .rsp)
  newSlot : areas.WordIn new (ctxAt cpu.mem (ctxAddr layout new) .rsp)

namespace Switching

variable {layout : Layout} {areas : Stacks layout} {old new : Nat}
variable {cpu : Cpu} (switching : Switching areas old new cpu)
include switching

theorem ctx_new : ctxAt (saveCtx cpu) (ctxAddr layout new) =
    ctxAt cpu.mem (ctxAddr layout new) := by
  apply contextRecord.read_congr
  intro address inside
  apply saveCtx_outside
  rw [switching.rdi]
  exact Stacks.ctx_apart_ctx switching.newBound switching.oldBound
    switching.different.symm address inside

/-- The new thread is taken up with its saved context. -/
theorem run_eq : swtch.run cpu =
    resume (ctxAt cpu.mem (ctxAddr layout new))
      { cpu with mem := saveCtx cpu } := by
  rw [swtch_run, switching.rsi, switching.ctx_new]

/-- The switch writes to the old context and to the new stack only. -/
theorem outside {address : Addr}
    (outsideOld : ¬ Within (ctxAddr layout old) 72 address)
    (outsideNew : ¬ areas.InStack new address) :
    (swtch.run cpu).mem address = cpu.mem address := by
  apply swtch_outside
  · rw [switching.rdi]
    exact outsideOld
  · rw [switching.rsi, switching.ctx_new]
    exact fun inside => outsideNew (switching.newSlot address inside)

/-- The old context holds the registers of the caller. -/
theorem ctx_old : ctxAt (swtch.run cpu).mem (ctxAddr layout old) =
    callerCtx cpu := by
  have apart : Apart (cpu.regs .rsp) 8 (cpu.regs .rdi) 72 := by
    intro address inSlot inCtx
    rw [switching.rdi] at inCtx
    exact areas.ctx_not_inStack switching.oldBound switching.oldBound inCtx
      (switching.slot address inSlot)
  rw [← saveCtx_ctx cpu apart, switching.rdi, switching.run_eq]
  apply contextRecord.read_congr
  intro address inside
  apply store64_outside
  intro inSlot
  exact areas.ctx_not_inStack switching.oldBound switching.newBound inside
    (switching.newSlot address inSlot)

/-- What belongs to a third thread is left alone. -/
theorem owned {t : Nat} (bound : t < maxProc) (notOld : t ≠ old)
    (notNew : t ≠ new) {address : Addr} (owned : areas.Owned t address) :
    (swtch.run cpu).mem address = cpu.mem address := by
  apply switching.outside
  · intro inOld
    exact areas.owned_apart bound switching.oldBound notOld owned
      (Or.inl inOld)
  · intro inNew
    exact areas.owned_apart bound switching.newBound notNew owned
      (Or.inr inNew)

/-- The stack of the old thread is left alone. -/
theorem stack_old {address : Addr} (inside : areas.InStack old address) :
    (swtch.run cpu).mem address = cpu.mem address := by
  apply switching.outside
  · intro inCtx
    exact areas.ctx_not_inStack switching.oldBound switching.oldBound inCtx
      inside
  · exact areas.inStack_apart switching.oldBound switching.newBound
      switching.different inside

end Switching

/-! ## Switches of the scheduler's machine -/

/-- The entry is in use and filled in. -/
def Live (kernel : KernelState) (t : Nat) : Prop :=
  (kernel.procs t).state ≠ .uninit ∧ (kernel.procs t).state ≠ .reserve

/-- The arguments of `swtch`, as table indices, if it is called next. -/
def switchOf (machine : Machine) : Option (Nat × Nat) :=
  match machine.code with
  | .swtchToIdle old :: _ => some (old, machine.kernel.idlectx)
  | .swtchFromIdle :: _ =>
      some (machine.kernel.idlectx, machine.kernel.curproc)
  | _ => none

section Machine

variable {layout : Layout} {phase : Phase} {machine machine' : Machine}
variable {event : Event} {t : Nat}

theorem Live.bound (live : Live machine.kernel t) (good : Good phase machine) :
    t < maxProc :=
  lt_of_lt_of_le (good.fits.holds.lt_nproc live.1 live.2)
    good.fits.holds.bounded

/-- The next entry of the table is not in use. -/
theorem not_live_nproc (good : Good phase machine) :
    ¬ Live machine.kernel machine.kernel.nproc :=
  fun live => Nat.lt_irrefl _ (good.fits.holds.lt_nproc live.1 live.2)

theorem live_of_state {kernel : KernelState} {state : ProcState}
    (same : (kernel.procs t).state = state) (notUnused : state ≠ .uninit)
    (notReserved : state ≠ .reserve) : Live kernel t := by
  unfold Live
  rw [same]
  exact ⟨notUnused, notReserved⟩

/-- A process that is there stays there. -/
theorem Live.step (live : Live machine.kernel t) (good : Good phase machine)
    (stepped : step layout event machine = some (.ok machine')) :
    Live machine'.kernel t := by
  rcases (good.step stepped).2 machine' rfl with ⟨phase', good', next⟩
  rcases (good.safeStep good' next).changes t with same | change
  · exact live_of_state same live.1 live.2
  · unfold Live at live ⊢
    generalize (machine.kernel.procs t).state = before at change live
    generalize (machine'.kernel.procs t).state = after at change
    cases change with
    | reserve => exact absurd rfl live.1
    | ready => exact absurd rfl live.2
    | dispatch => exact ⟨by simp, by simp⟩
    | leave _ _ _ which =>
        rcases which with rfl | rfl | rfl <;> exact ⟨by simp, by simp⟩
    | wake => exact ⟨by simp, by simp⟩

/-- Only a switch changes the thread on the processor. -/
theorem thread_of_step
    (stepped : step layout event machine = some (.ok machine'))
    (noSwitch : event = .run → switchOf machine = none) :
    machine'.thread = machine.thread := by
  cases event with
  | tick =>
      rcases step_tick stepped with ⟨_, rfl⟩
      rfl
  | call op =>
      rcases step_call stepped with ⟨_, _, rfl⟩
      rfl
  | run =>
      have notPair := noSwitch rfl
      obtain ⟨stmt, rest, shape⟩ := code_of_run stepped
      have notSwitch : isSwitch stmt = false := by
        simp only [switchOf, shape] at notPair
        cases stmt <;> first | rfl | cases notPair
      rcases step_of_code shape notSwitch stepped with
        ⟨_, _, rfl⟩ | ⟨_, _, _, _, rfl⟩ <;> rfl

theorem leave_state_live (how : Leave) :
    how.state ≠ .uninit ∧ how.state ≠ .reserve := by
  cases how <;> exact ⟨by simp [Leave.state], by simp [Leave.state]⟩

/-- A switch never fails. -/
theorem exists_switch {pair : Nat × Nat} (layout : Layout)
    (calls : switchOf machine = some pair) :
    ∃ machine', step layout .run machine = some (.ok machine') := by
  unfold switchOf at calls
  split at calls
  · rename_i code
    simp only [Processor.step, runStmt, code]
    exact ⟨_, rfl⟩
  · rename_i code
    simp only [Processor.step, runStmt, code]
    exact ⟨_, rfl⟩
  · cases calls

/-- What a switch of `sched` or `idlemain` does to the machine. -/
structure Switched (machine : Machine) (old new : Nat) (machine' : Machine) :
    Prop where
  leaves : machine.thread = old
  enters : machine'.thread = new
  different : old ≠ new
  oldLive : Live machine.kernel old
  newLive : Live machine.kernel new
  kernel : machine'.kernel = machine.kernel

theorem switched_of_step {old new : Nat} (good : Good phase machine)
    (pair : switchOf machine = some (old, new))
    (stepped : step layout .run machine = some (.ok machine')) :
    Switched machine old new machine' := by
  have holds := good.fits.holds
  have idleLive : Live machine.kernel 0 :=
    live_of_state ((holds.running 0).mpr (Or.inl rfl)) (by simp) (by simp)
  unfold switchOf at pair
  split at pair
  · rename_i t rest code
    rcases Prod.mk.inj (Option.some.inj pair) with ⟨rfl, rfl⟩
    rcases good.toIdle code with ⟨how, rfl, _⟩
    have process : t ≠ 0 := holds.extra.1
    have state : (machine.kernel.procs t).state = how.state := holds.extra.2
    simp only [Processor.step, runStmt, code] at stepped
    rcases Except.ok.inj (Option.some.inj stepped) with rfl
    have live := leave_state_live how
    refine ⟨good.thread, rfl, ?_, live_of_state state live.1 live.2, ?_, rfl⟩
    · rw [good.fits.idlectx]
      exact process
    · rw [good.fits.idlectx]
      exact idleLive
  · rename_i rest code
    rcases Prod.mk.inj (Option.some.inj pair) with ⟨rfl, rfl⟩
    rcases good.fromIdle code with ⟨p, rfl, _⟩
    have process : p ≠ 0 := holds.extra
    have current : machine.kernel.curproc = p := holds.curproc
    have runs : (machine.kernel.procs p).state = .running :=
      (holds.running p).mpr (Or.inr rfl)
    simp only [Processor.step, runStmt, code] at stepped
    rcases Except.ok.inj (Option.some.inj stepped) with rfl
    rw [good.fits.idlectx, current]
    exact ⟨good.thread, rfl, process.symm, idleLive,
      live_of_state runs (by simp) (by simp), rfl⟩
  · cases pair

end Machine

/-! ## Threads and processor together -/

structure System where
  machine : Machine
  cpu : Cpu

section Rules

variable {layout : Layout} (areas : Stacks layout)

/-- What a thread leaves alone: its own saved context, and the contexts and the
stacks of the others. -/
structure Keeps (machine : Machine) (mem mem' : Memory) : Prop where
  own : ∀ address, Within (ctxAddr layout machine.thread) 72 address →
    mem' address = mem address
  others : ∀ t, t ≠ machine.thread → Live machine.kernel t →
    ∀ address, areas.Owned t address → mem' address = mem address

/-- The saved stack pointer of the thread points into its stack. -/
def Parked (mem : Memory) (t : Nat) : Prop :=
  areas.WordIn t (ctxAt mem (ctxAddr layout t) .rsp)

inductive Step : System → System → Prop where
  /-- The thread on the processor works. -/
  | work {machine : Machine} {cpu cpu' : Cpu}
      (keeps : Keeps areas machine cpu.mem cpu'.mem) :
      Step ⟨machine, cpu⟩ ⟨machine, cpu'⟩
  /-- A step of the machine other than a switch.  A process whose entry is now
  filled in has a stack pointer that points into its stack; if the two have one
  memory, this follows from the statements that have filled it in
  (`Creation.joined_of_reachable`). -/
  | event {machine machine' : Machine} {cpu cpu' : Cpu} (event : Event)
      (stepped : step layout event machine = some (.ok machine'))
      (noSwitch : event = .run → switchOf machine = none)
      (keeps : Keeps areas machine cpu.mem cpu'.mem)
      (born : ∀ t, ¬ Live machine.kernel t → Live machine'.kernel t →
        Parked areas cpu'.mem t) :
      Step ⟨machine, cpu⟩ ⟨machine', cpu'⟩
  /-- `sched` or `idlemain` has called `swtch`. -/
  | switch {machine machine' : Machine} {cpu : Cpu} {old new : Nat}
      (pair : switchOf machine = some (old, new))
      (stepped : step layout .run machine = some (.ok machine'))
      (rdi : cpu.regs .rdi = ctxAddr layout old)
      (rsi : cpu.regs .rsi = ctxAddr layout new)
      (slot : areas.WordIn old (cpu.regs .rsp)) :
      Step ⟨machine, cpu⟩ ⟨machine', swtch.run cpu⟩

/-- The states of the machine and the processor in any run after `procinit`. -/
def SystemReachable (system : System) : Prop :=
  ∃ index heap image cpu, Relation.ReflTransGen (Step areas)
    ⟨boot layout index heap image, cpu⟩ system

/-- Every process off the processor has a stack pointer into its stack. -/
structure Sound (system : System) : Prop where
  good : ∃ phase, Good phase system.machine
  parked : ∀ t, t ≠ system.machine.thread → Live system.machine.kernel t →
    Parked areas system.cpu.mem t

end Rules

section Sound

variable {layout : Layout} {areas : Stacks layout}

theorem parked_congr {mem mem' : Memory} {t : Nat}
    (parked : Parked areas mem t)
    (kept : ∀ address, areas.Owned t address → mem' address = mem address) :
    Parked areas mem' t := by
  have same : ctxAt mem' (ctxAddr layout t) = ctxAt mem (ctxAddr layout t) :=
    contextRecord.read_congr fun address inside =>
      kept address (Or.inl inside)
  rwa [Parked, same]

/-- The processor is ready for a switch. -/
theorem Sound.switching {machine machine' : Machine} {cpu : Cpu}
    {old new : Nat} (sound : Sound areas ⟨machine, cpu⟩)
    (switched : Switched machine old new machine')
    (rdi : cpu.regs .rdi = ctxAddr layout old)
    (rsi : cpu.regs .rsi = ctxAddr layout new)
    (slot : areas.WordIn old (cpu.regs .rsp)) :
    Switching areas old new cpu := by
  rcases sound.good with ⟨phase, good⟩
  have off : new ≠ machine.thread := by
    rw [switched.leaves]
    exact switched.different.symm
  exact ⟨switched.oldLive.bound good, switched.newLive.bound good,
    switched.different, rdi, rsi, slot,
    sound.parked new off switched.newLive⟩

theorem Sound.next {system system' : System} (sound : Sound areas system)
    (stepped : Step areas system system') : Sound areas system' := by
  rcases sound.good with ⟨phase, good⟩
  cases stepped with
  | work keeps =>
      refine ⟨sound.good, ?_⟩
      intro t off live
      exact parked_congr (sound.parked t off live) (keeps.others t off live)
  | @event machine machine' cpu cpu' event stepped noSwitch keeps born =>
      rcases (good.step stepped).2 machine' rfl with ⟨phase', good', _⟩
      refine ⟨⟨phase', good'⟩, ?_⟩
      intro t off live
      have off' : t ≠ machine.thread := by
        rw [← thread_of_step stepped noSwitch]
        exact off
      by_cases before : Live machine.kernel t
      · exact parked_congr (sound.parked t off' before)
          (keeps.others t off' before)
      · exact born t before live
  | @switch machine machine' cpu old new pair stepped rdi rsi slot =>
      have switched := switched_of_step good pair stepped
      have switching := sound.switching switched rdi rsi slot
      rcases (good.step stepped).2 machine' rfl with ⟨phase', good', _⟩
      refine ⟨⟨phase', good'⟩, ?_⟩
      intro t off live
      have notNew : t ≠ new := switched.enters ▸ off
      have live' : Live machine.kernel t := switched.kernel ▸ live
      by_cases isOld : t = old
      · subst isOld
        show areas.WordIn t (ctxAt (swtch.run cpu).mem _ .rsp)
        rw [switching.ctx_old]
        exact slot
      · have off' : t ≠ machine.thread := by
          rw [switched.leaves]
          exact isOld
        exact parked_congr (sound.parked t off' live')
          fun _ => switching.owned (live'.bound good) isOld notNew

theorem sound_of_reachable {system : System}
    (reachable : SystemReachable areas system) : Sound areas system := by
  rcases reachable with ⟨index, heap, image, cpu, run⟩
  induction run with
  | refl =>
      refine ⟨⟨_, good_boot layout index heap image⟩, ?_⟩
      intro t off live
      have good := good_boot layout index heap image
      have first : t < 1 := good.fits.holds.lt_nproc live.1 live.2
      exact absurd (show t = 0 by omega) off
  | tail _ stepped sound => exact sound.next stepped

end Sound

/-! ## Every run of the machine is a run of the threads -/

section Lift

variable {layout : Layout} {areas : Stacks layout} {phase : Phase}
variable {machine machine' : Machine} {cpu : Cpu} {event : Event} {t : Nat}

theorem thread_live (good : Good phase machine) :
    Live machine.kernel machine.thread := by
  have holds := good.fits.holds
  have runs (u : Nat) (runner : u = 0 ∨ u = phase.runner) :
      Live machine.kernel u :=
    live_of_state ((holds.running u).mpr runner) (by simp) (by simp)
  have left (u : Nat) (how : Leave)
      (state : (core machine.kernel).state u = how.state) :
      Live machine.kernel u :=
    live_of_state state (leave_state_live how).1 (leave_state_live how).2
  rw [good.thread]
  cases phase with
  | stored u how => exact left u how holds.extra.2
  | left u how => exact left u how holds.extra.2
  | handed u how => exact left u how holds.extra.2
  | own u => exact runs u (Or.inr rfl)
  | fresh u p => exact runs u (Or.inr rfl)
  | reserving u p => exact runs u (Or.inr rfl)
  | filling u p => exact runs u (Or.inr rfl)
  | quiet u how => exact runs u (Or.inr rfl)
  | _ => exact runs 0 (Or.inl rfl)

/-- A process comes to life when its entry has been filled in. -/
theorem filling_of_born (good : Good phase machine)
    (stepped : step layout event machine = some (.ok machine'))
    (before : ¬ Live machine.kernel t) (after : Live machine'.kernel t) :
    ∃ u, phase = .filling u t := by
  rcases (good.step stepped).2 machine' rfl with ⟨phase', _, next⟩
  have state' : (machine'.kernel.procs t).state =
      (core machine'.kernel).state t := rfl
  unfold Live at after
  rw [state'] at after
  generalize core machine'.kernel = core' at next after
  cases next with
  | tick unmasked =>
      rcases (core machine.kernel).tick_state t with same | ⟨asleep, _⟩
      · rw [same] at after
        exact absurd after before
      · exact absurd (live_of_state asleep (by simp) (by simp)) before
  | move notTick move =>
      rcases good.fits.holds.change move t with same | change
      · rw [Core.state, same] at after
        exact absurd after before
      · unfold Core.state at after
        generalize core'.procs t = proc' at change after
        cases change with
        | reserve => exact absurd rfl after.2
        | ready filling _ => exact filling
        | dispatch _ _ state =>
            exact absurd (live_of_state state (by simp) (by simp)) before
        | leave how _ _ state =>
            exact absurd (live_of_state state (by simp) (by simp)) before
        | store how _ _ =>
            rw [store_state] at after
            exact absurd after before

/-- The first word of a stack lies in it. -/
theorem wordIn_base (areas : Stacks layout) (t : Nat) :
    areas.WordIn t (areas.base t) := by
  intro place inside
  have room := areas.room
  unfold Stacks.InStack Stacks.size
  split
  · exact lt_of_lt_of_le inside room
  · exact lt_of_lt_of_le inside (by decide)

/-- Every step of the machine but a switch can be taken with the processor. -/
theorem Sound.exists_event (sound : Sound areas ⟨machine, cpu⟩)
    (stepped : step layout event machine = some (.ok machine'))
    (noSwitch : event = .run → switchOf machine = none) :
    ∃ cpu', Step areas ⟨machine, cpu⟩ ⟨machine', cpu'⟩ := by
  rcases sound.good with ⟨phase, good⟩
  rcases (good.step stepped).2 machine' rfl with ⟨phase', good', _⟩
  by_cases born : ∃ t, ¬ Live machine.kernel t ∧ Live machine'.kernel t
  · rcases born with ⟨t, before, after⟩
    rcases filling_of_born good stepped before after with ⟨u, filling⟩
    have bound : t < maxProc := after.bound good'
    -- a write to the context of the new process disturbs no other
    have other (v : Nat) (live : Live machine.kernel v) (address : Addr)
        (owned : areas.Owned v address) :
        ¬ Within (ctxAddr layout t + CtxField.rsp.offset) 8 address := by
      intro inField
      have inCtx := contextRecord.within_of_field .rsp inField
      have different : t ≠ v := by
        rintro rfl
        exact before live
      rcases owned with inCtx' | inStack
      · exact Stacks.ctx_apart_ctx bound (live.bound good) different address
          inCtx inCtx'
      · exact areas.ctx_not_inStack bound (live.bound good) inCtx inStack
    let mem' := store64 cpu.mem (ctxAddr layout t + CtxField.rsp.offset)
      (areas.base t)
    refine ⟨{ cpu with mem := mem' },
      .event event stepped noSwitch ⟨?_, ?_⟩ ?_⟩
    · intro address inCtx
      exact store64_outside _ _ _ _
        (other _ (thread_live good) address (Or.inl inCtx))
    · intro v _ live address owned
      exact store64_outside _ _ _ _ (other v live address owned)
    · intro v before' after'
      rcases filling_of_born good stepped before' after' with ⟨u', filling'⟩
      obtain ⟨_, rfl⟩ := Phase.filling.inj (filling.symm.trans filling')
      show areas.WordIn t (ctxAt mem' (ctxAddr layout t) .rsp)
      rw [ctxAt_store, Function.update_self]
      exact wordIn_base areas t
  · refine ⟨cpu, .event event stepped noSwitch ⟨fun _ _ => rfl,
      fun _ _ _ _ _ => rfl⟩ ?_⟩
    intro t before after
    exact absurd ⟨t, before, after⟩ born

/-- A thread about to switch can load the arguments and call `swtch`. -/
theorem exists_switching {pair : Nat × Nat}
    (calls : switchOf machine = some pair)
    (stepped : step layout .run machine = some (.ok machine')) (cpu : Cpu) :
    ∃ cpu', cpu'.cpl = 0 ∧ cpu'.mem = cpu.mem ∧
      Step areas ⟨machine, cpu⟩ ⟨machine, cpu'⟩ ∧
      Step areas ⟨machine, cpu'⟩ ⟨machine', swtch.run cpu'⟩ := by
  rcases pair with ⟨old, new⟩
  let cpu' : Cpu :=
    { ((cpu.set .rsp (areas.base old)).set .rdi (ctxAddr layout old)).set .rsi
        (ctxAddr layout new) with
      cs := (segKcode <<< 3).setWidth 16 }
  have kernelMode : cpu'.cpl = 0 := by
    show ((segKcode <<< 3).setWidth 16 &&& 3#16 : BitVec 16).toNat = 0
    decide
  refine ⟨cpu', kernelMode, rfl, .work ⟨fun _ _ => rfl, fun _ _ _ _ _ => rfl⟩,
    .switch calls stepped rfl rfl ?_⟩
  exact wordIn_base areas old

/-- A run of the machine through given states is a run of the threads. -/
theorem Sound.exists_run (Allowed : Machine → Prop)
    {steps : List (Event × Machine)}
    (sound : Sound areas ⟨machine, cpu⟩) (first : Allowed machine)
    (path : Lib.Transition.Path (step layout) machine steps machine')
    (allowed : ∀ entry ∈ steps, Allowed entry.2) :
    ∃ cpu', Relation.ReflTransGen
      (fun system system' => Step areas system system' ∧
        Allowed system'.machine) ⟨machine, cpu⟩ ⟨machine', cpu'⟩ := by
  induction path generalizing cpu with
  | nil machine => exact ⟨cpu, .refl⟩
  | @cons machine second last event steps head rest induction =>
      have allowed' : Allowed second := allowed _ List.mem_cons_self
      have more : ∀ entry ∈ steps, Allowed entry.2 :=
        fun entry member => allowed entry (List.mem_cons_of_mem _ member)
      by_cases noSwitch : event = .run → switchOf machine = none
      · rcases sound.exists_event head noSwitch with ⟨cpu₁, stepped⟩
        rcases induction (sound.next stepped) allowed' more with
          ⟨cpu', run⟩
        exact ⟨cpu', .head ⟨stepped, allowed'⟩ run⟩
      · push Not at noSwitch
        rcases noSwitch with ⟨rfl, isSwitch⟩
        rcases Option.ne_none_iff_exists'.mp isSwitch with ⟨pair, calls⟩
        rcases exists_switching calls head cpu with
          ⟨cpu₁, _, _, loads, switches⟩
        rcases induction ((sound.next loads).next switches) allowed' more with
          ⟨cpu', run⟩
        exact ⟨cpu', .head ⟨loads, first⟩ (.head ⟨switches, allowed'⟩ run)⟩

end Lift

/-! ## Off the processor -/

/-- The process `p` is off the processor, and its context and its stack are as
in the given memory. -/
structure Off {layout : Layout} (areas : Stacks layout) (p : Nat)
    (mem : Memory) (system : System) : Prop where
  sound : Sound areas system
  off : p ≠ system.machine.thread
  live : Live system.machine.kernel p
  kept : ∀ address, areas.Owned p address →
    system.cpu.mem address = mem address

section Off

variable {layout : Layout} {areas : Stacks layout} {p : Nat} {mem : Memory}
variable {system system' : System}

/-- Nothing touches what belongs to a process off the processor. -/
theorem Off.step (isOff : Off areas p mem system)
    (stepped : Step areas system system')
    (away : system'.machine.thread ≠ p) : Off areas p mem system' := by
  have sound' := isOff.sound.next stepped
  rcases isOff.sound.good with ⟨phase, good⟩
  have live := isOff.live
  cases stepped with
  | work keeps =>
      refine ⟨sound', isOff.off, live, ?_⟩
      intro address owned
      exact (keeps.others p isOff.off live address owned).trans
        (isOff.kept address owned)
  | event event stepped noSwitch keeps born =>
      refine ⟨sound', away.symm, live.step good stepped, ?_⟩
      intro address owned
      exact (keeps.others p isOff.off live address owned).trans
        (isOff.kept address owned)
  | switch pair stepped rdi rsi slot =>
      have switched := switched_of_step good pair stepped
      have switching := isOff.sound.switching switched rdi rsi slot
      refine ⟨sound', away.symm, live.step good stepped, ?_⟩
      intro address owned
      have notOld : p ≠ _ := switched.leaves ▸ isOff.off
      have notNew : p ≠ _ := switched.enters ▸ away.symm
      exact (switching.owned (live.bound good) notOld notNew owned).trans
        (isOff.kept address owned)

/-- A run in which the process does not come back. -/
abbrev Away (areas : Stacks layout) (p : Nat) : System → System → Prop :=
  Relation.ReflTransGen fun system system' =>
    Step areas system system' ∧ system'.machine.thread ≠ p

theorem Off.run (isOff : Off areas p mem system)
    (away : Away areas p system system') : Off areas p mem system' := by
  induction away with
  | refl => exact isOff
  | tail _ next isOff' => exact isOff'.step next.1 next.2

/-- A process comes back by a switch of another thread to it. -/
theorem Off.switching (isOff : Off areas p mem system)
    (stepped : Step areas system system')
    (resumed : system'.machine.thread = p) :
    ∃ old, Switching areas old p system.cpu ∧
      system'.cpu = swtch.run system.cpu := by
  rcases isOff.sound.good with ⟨phase, good⟩
  cases stepped with
  | work keeps => exact absurd resumed.symm isOff.off
  | event event stepped noSwitch keeps born =>
      rw [thread_of_step stepped noSwitch] at resumed
      exact absurd resumed.symm isOff.off
  | @switch machine machine' cpu old new pair stepped rdi rsi slot =>
      have switched := switched_of_step good pair stepped
      obtain rfl : new = p := switched.enters.symm.trans resumed
      exact ⟨old, isOff.sound.switching switched rdi rsi slot, rfl⟩

/-- A process that comes back is taken up with its context. -/
theorem Off.back (isOff : Off areas p mem system)
    (stepped : Step areas system system')
    (resumed : system'.machine.thread = p) :
    system'.cpu = resume (ctxAt mem (ctxAddr layout p))
        { system.cpu with mem := saveCtx system.cpu } ∧
      ∀ address, areas.Owned p address →
        saveCtx system.cpu address = mem address := by
  rcases isOff.switching stepped resumed with ⟨old, switching, ran⟩
  have ctx : ctxAt system.cpu.mem (ctxAddr layout p) =
      ctxAt mem (ctxAddr layout p) :=
    contextRecord.read_congr fun address inside =>
      isOff.kept address (Or.inl inside)
  refine ⟨?_, ?_⟩
  · rw [ran, switching.run_eq, ctx]
  · intro address owned
    rw [← isOff.kept address owned]
    apply saveCtx_outside
    rw [switching.rdi]
    intro inOld
    rcases owned with inCtx | inStack
    · exact Stacks.ctx_apart_ctx switching.oldBound switching.newBound
        switching.different address inOld inCtx
    · exact areas.ctx_not_inStack switching.oldBound switching.newBound inOld
        inStack

/-- Apart from a saved context and the stack of the process, the memory is left
alone when it comes back. -/
theorem Off.back_outside (isOff : Off areas p mem system)
    (stepped : Step areas system system')
    (resumed : system'.machine.thread = p) :
    ∃ old < maxProc, ∀ address, ¬ Within (ctxAddr layout old) 72 address →
      ¬ areas.InStack p address →
        system'.cpu.mem address = system.cpu.mem address := by
  rcases isOff.switching stepped resumed with ⟨old, switching, ran⟩
  rw [ran]
  exact ⟨old, switching.oldBound, fun _ => switching.outside⟩

end Off

/-! ## The round trip -/

/-- The registers that `swtch` promises to keep, besides the stack pointer. -/
def calleeSaved : List Reg :=
  [.r12, .r13, .r14, .r15, .rbx, .rbp]

theorem resume_calleeSaved {reg : Reg} (saved : reg ∈ calleeSaved)
    (caller cpu : Cpu) :
    (resume (callerCtx caller) cpu).regs reg = caller.regs reg := by
  simp only [calleeSaved, List.mem_cons, List.not_mem_nil, or_false] at saved
  rcases saved with rfl | rfl | rfl | rfl | rfl | rfl <;> rfl

/-- How a process finds the processor when its call of `swtch` returns. -/
structure AsLeft {layout : Layout} (areas : Stacks layout) (p : Nat)
    (called back : Cpu) : Prop where
  regs : ∀ reg ∈ calleeSaved, back.regs reg = called.regs reg
  rsp : back.regs .rsp = called.regs .rsp + 8
  rip : back.rip = load64 called.mem (called.regs .rsp)
  stack : ∀ address, areas.InStack p address →
    back.mem address = called.mem address

/--
In every run of the threads on the processor, a process that calls `sched` and
is taken up again, after whatever switches came between, returns from `swtch` to
the return address of its call, with the registers that `swtch` promises to
keep, the stack pointer and all of its stack as at the call.
-/
theorem switch_round_trip {layout : Layout} {areas : Stacks layout} {p : Nat}
    {called out before back : System}
    (reachable : SystemReachable areas called)
    (sched : switchOf called.machine =
      some (p, called.machine.kernel.idlectx))
    (leaves : Step areas called out) (left : out.machine.thread ≠ p)
    (away : Away areas p out before) (enters : Step areas before back)
    (resumed : back.machine.thread = p) :
    AsLeft areas p called.cpu back.cpu := by
  have sound := sound_of_reachable reachable
  have sound' := sound.next leaves
  rcases sound.good with ⟨phase, good⟩
  have onCpu : called.machine.thread = p := by
    rcases exists_switch layout sched with ⟨next, stepped⟩
    exact (switched_of_step good sched stepped).leaves
  cases leaves with
  | work keeps => exact absurd onCpu left
  | event event stepped noSwitch keeps born =>
      rw [thread_of_step stepped noSwitch] at left
      exact absurd onCpu left
  | @switch machine machine' cpu old new pair stepped rdi rsi slot =>
      rcases Prod.mk.inj (Option.some.inj (pair.symm.trans sched)) with
        ⟨rfl, rfl⟩
      have switched := switched_of_step good pair stepped
      have switching := sound.switching switched rdi rsi slot
      have isOff : Off areas old (swtch.run cpu).mem
          ⟨machine', swtch.run cpu⟩ :=
        ⟨sound', left.symm, switched.oldLive.step good stepped,
          fun _ _ => rfl⟩
      rcases (isOff.run away).back enters resumed with ⟨taken, kept⟩
      rw [switching.ctx_old] at taken
      rw [taken]
      refine ⟨fun reg saved => resume_calleeSaved saved _ _, rfl, rfl, ?_⟩
      intro address inside
      -- the word that `swtch` writes to the stack is the one already there
      have same : saveCtx before.cpu address = cpu.mem address :=
        (kept address (Or.inr inside)).trans (switching.stack_old inside)
      exact (store64_congr _ _ same).trans
        (congrFun (store64_load64 cpu.mem (cpu.regs .rsp)) address)

/-! ## A sample run -/

/-- The boot stack below 0xFFFFFFFF80010000. -/
def sampleStacks : Stacks sampleLayout where
  idle := 0xFFFFFFFF80008000
  idleSize := 32768
  room := by decide
  small := by decide
  procsKstacks := sampleLayout_valid.procsKstacks
  idleProcs := @apart_of_offsets 0xFFFFFFFF80008000 0 0xF8000 32768 1152
    (by decide) (by decide)
  idleKstacks := @apart_of_offsets 0xFFFFFFFF80008000 0 0xFA000 32768 32768
    (by decide) (by decide)

def sampleCpu : Cpu where
  regs _ := 0
  rip := 0
  rflags := 2
  cs := 8
  ss := 0
  mem _ := 0
  idt _ := { handler := 0, selector := 8, dpl := 0, trapGate := false }
  rsp0 := 0
  fsBase := 0

/-- A process yields and is the next to run. -/
theorem switch_round_trip_yield :
    ∃ called out before back : System,
      SystemReachable sampleStacks called ∧
      switchOf called.machine = some (1, called.machine.kernel.idlectx) ∧
      Step sampleStacks called out ∧ Away sampleStacks 1 out before ∧
      Step sampleStacks before back ∧ back.machine.thread = 1 ∧
      AsLeft sampleStacks 1 called.cpu back.cpu := by
  have ran : ((Lib.Transition.follow (step sampleLayout)
      (sampleEvents ++ .call .yield :: List.replicate 7 .run)
        sampleBoot).bind fun a =>
      (Lib.Transition.follow (step sampleLayout) [.run] a.2).bind fun b =>
      (Lib.Transition.follow (step sampleLayout) (List.replicate 13 .run)
        b.2).bind fun c =>
      (Lib.Transition.follow (step sampleLayout) [.run] c.2).map fun d =>
        decide (switchOf a.2 = some (1, a.2.kernel.idlectx) ∧
          b.2.thread ≠ 1 ∧ (∀ entry ∈ c.1, entry.2.thread ≠ 1) ∧
          c.2.thread ≠ 1 ∧ switchOf c.2 = some (0, 1) ∧ d.2.thread = 1)) =
      some true := by decide +kernel
  rcases Option.bind_eq_some_iff.mp ran with ⟨⟨_, m₁⟩, ran₁, ranB⟩
  rcases Option.bind_eq_some_iff.mp ranB with ⟨⟨_, _⟩, ran₂, ranC⟩
  rcases Option.bind_eq_some_iff.mp ranC with ⟨⟨steps, m₃⟩, ran₃, ranD⟩
  rcases Option.map_eq_some_iff.mp ranD with ⟨⟨_, _⟩, ran₄, facts⟩
  rcases of_decide_eq_true facts with
    ⟨calls, left, away, left', calls', resumed⟩
  rcases Lib.Transition.follow_cons ran₂ with ⟨m₂, _, step₂, done, _⟩
  obtain ⟨_, rfl⟩ := Prod.mk.inj (Option.some.inj done)
  rcases Lib.Transition.follow_cons ran₄ with ⟨m₄, _, step₄, done', _⟩
  obtain ⟨_, rfl⟩ := Prod.mk.inj (Option.some.inj done')
  have booted : SystemReachable sampleStacks ⟨sampleBoot, sampleCpu⟩ :=
    ⟨0, sampleHeap, _, sampleCpu, .refl⟩
  have sound := sound_of_reachable booted
  rcases sound.exists_run (fun _ => True) trivial (.of_follow ran₁)
    (fun _ _ => trivial) with ⟨cpu₁, run₁⟩
  rcases exists_switching calls step₂ cpu₁ with
    ⟨called, _, _, loads, leaves⟩
  have reachable : SystemReachable sampleStacks ⟨m₁, called⟩ :=
    ⟨0, sampleHeap, _, sampleCpu,
      (run₁.lift id fun _ _ next => next.1).tail loads⟩
  have sound₂ := (sound_of_reachable reachable).next leaves
  rcases sound₂.exists_run (fun machine => machine.thread ≠ 1) left
    (.of_follow ran₃) away with ⟨cpu₃, run₃⟩
  rcases exists_switching calls' step₄ cpu₃ with
    ⟨before, _, _, loads', enters⟩
  have away' : Away sampleStacks 1 ⟨m₂, swtch.run called⟩ ⟨m₃, before⟩ :=
    run₃.tail ⟨loads', left'⟩
  exact ⟨⟨m₁, called⟩, ⟨m₂, swtch.run called⟩, ⟨m₃, before⟩,
    ⟨m₄, swtch.run before⟩, reachable, calls, leaves, away', enters, resumed,
    switch_round_trip reachable calls leaves left away' enters resumed⟩

end Rt64.Kernel.Threads
