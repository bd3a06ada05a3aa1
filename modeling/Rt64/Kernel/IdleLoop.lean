import Rt64.Kernel.Scheduler

/-!
# The places in the idle loop

The boot thread creates processes with interrupts off and then enters `idlemain`,
which it never leaves.  From then on the idle process is at one of finitely many
places of its loop whenever it is on the processor, and right behind the switch
whenever it is not.
-/

namespace Rt64.Kernel.IdleLoop

open Rt64.Lib.Transition
open Rt64.Include.Defs
open Rt64.Kernel.Process
open Rt64.Kernel.Processor
open Rt64.Kernel.Rounds
open Rt64.Kernel.Scheduler

/-! ## Places -/

/-- Where the idle process is in its loop. -/
inductive Spot where
  /-- Behind the switch to a process that has come back. -/
  | back
  | loop
  | sti
  /-- In `find_runnable_proc`: before a look at the entry at the cursor, and
  before the step to the next entry. -/
  | probe
  | skip
  | found (p : Nat)
  | chosen (p : Nat)
  /-- In the dispatch of `p`, before each of its statements. -/
  | take (p : Nat)
  | send (p : Nat)
  | loadRoot (p : Nat)
  | checkIdle (p : Nat)
  | loadTss (p : Nat)
  | switch (p : Nat)

/-- The statements left at a place. -/
def Spot.code : Spot → List Stmt
  | .back => (dispatch 0).drop 6
  | .loop => [.loop]
  | .sti => [.sti, .probe]
  | .probe => [.probe]
  | .skip => [.advance, .probe]
  | .found p => [.advance, .choose (some p)]
  | .chosen p => [.choose (some p)]
  | .take p => dispatch p
  | .send p => (dispatch p).drop 1
  | .loadRoot p => (dispatch p).drop 2
  | .checkIdle p => (dispatch p).drop 3
  | .loadTss p => (dispatch p).drop 4
  | .switch p => (dispatch p).drop 5

/-- The idle process is at the place; a process that is about to be made to run
is `curproc`. -/
structure Spot.At (spot : Spot) (machine : Machine) : Prop where
  code : machine.code = spot.code
  current : ∀ p, spot = .send p → machine.kernel.curproc = p

/-- What the next statement at a place does to the loop. -/
inductive Spot.Next (kernel : KernelState) : Spot → Spot → KernelState → Prop where
  | back : Next kernel .back .loop kernel
  | loop : Next kernel .loop .sti kernel
  | sti : Next kernel .sti .probe { kernel with interruptible := true }
  | miss (notRunnable : (kernel.procs kernel.cursor).state ≠ .runnable) :
      Next kernel .probe .skip kernel
  | hit (runnable : (kernel.procs kernel.cursor).state = .runnable) :
      Next kernel .probe (.found kernel.cursor) kernel
  | skip : Next kernel .skip .probe
      { kernel with cursor := (kernel.cursor + 1) % kernel.nproc }
  | found (p : Nat) : Next kernel (.found p) (.chosen p)
      { kernel with cursor := (kernel.cursor + 1) % kernel.nproc }
  | chosen (p : Nat) : Next kernel (.chosen p) (.take p) kernel
  | take (p : Nat) :
      Next kernel (.take p) (.send p) { kernel with curproc := p }
  | send (p : Nat) :
      Next kernel (.send p) (.loadRoot p) (kernel.setProc kernel.curproc
        { kernel.procs kernel.curproc with state := .running })
  | loadRoot (p : Nat) (image : Image) :
      Next kernel (.loadRoot p) (.checkIdle p) { kernel with image }
  | checkIdle (p : Nat) : Next kernel (.checkIdle p) (.loadTss p) kernel
  | loadTss (p : Nat) (image : Image) :
      Next kernel (.loadTss p) (.switch p) { kernel with image }

section Run

variable {layout : Layout} {machine machine' : Machine} {spot : Spot}

theorem exec_of_run {stmt : Stmt} {rest : List Stmt}
    (code : machine.code = stmt :: rest) (notSwitch : isSwitch stmt = false)
    (ran : step layout .run machine = some (.ok machine')) :
    ∃ kernel more, stmt.exec machine.kernel = .ok (kernel, more) ∧
      machine' = { machine with kernel, code := more ++ rest } := by
  rcases step_of_code code notSwitch ran with ⟨isTick, _⟩ | ⟨_, exec⟩
  · cases isTick
  · exact exec

/-- A statement that changes nothing but the image leads to the next place. -/
theorem image_of_plain {kernel kernel' : KernelState}
    {act : KernelState → Except Halt Image} {more : List Stmt}
    (executed : (Stmt.plain act).exec kernel = .ok (kernel', more)) :
    ∃ image, kernel' = { kernel with image } ∧ more = [] := by
  rw [Stmt.exec, bind_eq_ok] at executed
  rcases executed with ⟨image, _, same⟩
  rcases Prod.mk.inj (Except.ok.inj same) with ⟨rfl, rfl⟩
  exact ⟨image, rfl, rfl⟩

theorem same_of_check {kernel kernel' : KernelState} {site : Site}
    {text : String} {condition : KernelState → Bool} {more : List Stmt}
    (executed : (Stmt.check site text condition).exec kernel =
      .ok (kernel', more)) : kernel' = kernel ∧ more = [] := by
  rw [Stmt.exec, assert_bind_eq_ok] at executed
  rcases Prod.mk.inj (Except.ok.inj executed.2) with ⟨rfl, rfl⟩
  exact ⟨rfl, rfl⟩

/-- A statement of the loop leads to the next place. -/
theorem next_of_run (code : machine.code = spot.code)
    (notSwitch : ∀ p, spot ≠ .switch p)
    (ran : step layout .run machine = some (.ok machine')) :
    ∃ spot' kernel, Spot.Next machine.kernel spot spot' kernel ∧
      machine' = { machine with kernel, code := spot'.code } := by
  cases spot with
  | switch p => exact absurd rfl (notSwitch p)
  | back =>
      rcases exec_of_run code rfl ran with ⟨kernel, more, executed, rfl⟩
      rcases same_of_check executed with ⟨rfl, rfl⟩
      exact ⟨.loop, _, .back, rfl⟩
  | checkIdle p =>
      rcases exec_of_run code rfl ran with ⟨kernel, more, executed, rfl⟩
      rcases same_of_check executed with ⟨rfl, rfl⟩
      exact ⟨.loadTss p, _, .checkIdle p, rfl⟩
  | loadRoot p =>
      rcases exec_of_run code rfl ran with ⟨kernel, more, executed, rfl⟩
      rcases image_of_plain executed with ⟨image, rfl, rfl⟩
      exact ⟨.checkIdle p, _, .loadRoot p image, rfl⟩
  | loadTss p =>
      rcases exec_of_run code rfl ran with ⟨kernel, more, executed, rfl⟩
      rcases image_of_plain executed with ⟨image, rfl, rfl⟩
      exact ⟨.switch p, _, .loadTss p image, rfl⟩
  | probe =>
      rcases exec_of_run code rfl ran with ⟨kernel, more, executed, rfl⟩
      rw [Stmt.exec] at executed
      split at executed
      · rename_i runnable
        rcases Prod.mk.inj (Except.ok.inj executed) with ⟨rfl, rfl⟩
        exact ⟨.found _, _, .hit runnable, rfl⟩
      · rename_i notRunnable
        rcases Prod.mk.inj (Except.ok.inj executed) with ⟨rfl, rfl⟩
        exact ⟨.skip, _, .miss notRunnable, rfl⟩
  | loop =>
      rcases exec_of_run code rfl ran with ⟨kernel, more, executed, rfl⟩
      rcases Prod.mk.inj (Except.ok.inj executed) with ⟨rfl, rfl⟩
      exact ⟨.sti, _, .loop, rfl⟩
  | sti =>
      rcases exec_of_run code rfl ran with ⟨kernel, more, executed, rfl⟩
      rcases Prod.mk.inj (Except.ok.inj executed) with ⟨rfl, rfl⟩
      exact ⟨.probe, _, .sti, rfl⟩
  | skip =>
      rcases exec_of_run code rfl ran with ⟨kernel, more, executed, rfl⟩
      rcases Prod.mk.inj (Except.ok.inj executed) with ⟨rfl, rfl⟩
      exact ⟨.probe, _, .skip, rfl⟩
  | found p =>
      rcases exec_of_run code rfl ran with ⟨kernel, more, executed, rfl⟩
      rcases Prod.mk.inj (Except.ok.inj executed) with ⟨rfl, rfl⟩
      exact ⟨.chosen p, _, .found p, rfl⟩
  | chosen p =>
      rcases exec_of_run code rfl ran with ⟨kernel, more, executed, rfl⟩
      rcases Prod.mk.inj (Except.ok.inj executed) with ⟨rfl, rfl⟩
      exact ⟨.take p, _, .chosen p, by rw [List.append_nil]; rfl⟩
  | take p =>
      rcases exec_of_run code rfl ran with ⟨kernel, more, executed, rfl⟩
      rcases Prod.mk.inj (Except.ok.inj executed) with ⟨rfl, rfl⟩
      exact ⟨.send p, _, .take p, rfl⟩
  | send p =>
      rcases exec_of_run code rfl ran with ⟨kernel, more, executed, rfl⟩
      rcases Prod.mk.inj (Except.ok.inj executed) with ⟨rfl, rfl⟩
      exact ⟨.loadRoot p, _, .send p, rfl⟩

theorem Spot.Next.at {spot' : Spot} {kernel : KernelState}
    (next : Spot.Next machine.kernel spot spot' kernel) :
    spot'.At { machine with kernel, code := spot'.code } := by
  refine ⟨rfl, ?_⟩
  rintro p rfl
  cases next with
  | take p => rfl

theorem code_ne_nil (spot : Spot) : spot.code ≠ [] := by
  cases spot <;> exact List.cons_ne_nil _ _

/-- The switch to a process leaves the idle process behind it. -/
theorem leaves_of_run {p : Nat} (code : machine.code = (Spot.switch p).code)
    (ran : step layout .run machine = some (.ok machine')) :
    machine' = { machine with
      saved := Function.update machine.saved machine.kernel.idlectx
        Spot.back.code
      thread := machine.kernel.curproc
      code := Function.update machine.saved machine.kernel.idlectx
        Spot.back.code machine.kernel.curproc } := by
  have shape : machine.code = .swtchFromIdle :: Spot.back.code := code
  simp only [step, runStmt, shape] at ran
  exact (Except.ok.inj (Option.some.inj ran)).symm

end Run

/-! ## The loop in a run -/

/-- The idle process is in its loop. -/
structure Looping (machine : Machine) : Prop where
  spot : machine.thread = 0 → ∃ spot : Spot, spot.At machine
  back : machine.thread ≠ 0 → machine.saved 0 = Spot.back.code

/-- Statements of the boot thread before it enters `idlemain`. -/
def creates : Stmt → Bool
  | .check _ _ _ | .plain _ | .setState _ _ | .takePid _ => true
  | _ => false

/-- The boot thread has not entered `idlemain`; no process has run. -/
structure Booting (machine : Machine) : Prop where
  thread : machine.thread = 0
  saved : ∀ t, machine.saved t = []
  off : machine.kernel.interruptible = false
  code : ∀ stmt ∈ machine.code, creates stmt = true

theorem creates_spawn (layout : Layout) (desc : NewProcDesc) (p : Nat) :
    ∀ stmt ∈ spawn layout desc p, creates stmt = true := by
  rw [← List.all_eq_true]
  rfl

theorem creates_spawnuser (layout : Layout) (desc : NewProcDesc) (p : Nat) :
    ∀ stmt ∈ spawnuser layout desc p, creates stmt = true := by
  rw [← List.all_eq_true]
  rfl

section Steps

variable {layout : Layout} {event : Event} {phase : Phase}
variable {machine machine' : Machine}

/-- Creating a process does not touch the interrupt flag. -/
theorem off_of_creates {stmt : Stmt} {kernel kernel' : KernelState}
    {more : List Stmt} (isCreate : creates stmt = true)
    (executed : stmt.exec kernel = .ok (kernel', more)) :
    kernel'.interruptible = kernel.interruptible ∧ more = [] := by
  cases stmt with
  | check =>
      rcases same_of_check executed with ⟨rfl, rfl⟩
      exact ⟨rfl, rfl⟩
  | plain =>
      rcases image_of_plain executed with ⟨image, rfl, rfl⟩
      exact ⟨rfl, rfl⟩
  | setState =>
      rcases Prod.mk.inj (Except.ok.inj executed) with ⟨rfl, rfl⟩
      exact ⟨rfl, rfl⟩
  | takePid =>
      rcases Prod.mk.inj (Except.ok.inj executed) with ⟨rfl, rfl⟩
      exact ⟨rfl, rfl⟩
  | _ => cases isCreate

theorem not_switch_of_creates {stmt : Stmt} (isCreate : creates stmt = true) :
    isSwitch stmt = false := by
  cases stmt <;> first | rfl | cases isCreate

theorem Booting.step (booting : Booting machine) (good : Good phase machine)
    (stepped : step layout event machine = some (.ok machine')) :
    Booting machine' ∨
      machine'.code = Spot.loop.code ∧ machine'.thread = 0 ∧
        (∀ t, machine'.saved t = []) ∧
        machine'.kernel.interruptible = false := by
  cases event with
  | tick =>
      have on := (step_tick stepped).1
      rw [booting.off] at on
      cases on
  | run =>
      rcases code_of_run stepped with ⟨stmt, rest, code⟩
      have isCreate := booting.code stmt (code ▸ List.mem_cons_self)
      rcases exec_of_run code (not_switch_of_creates isCreate) stepped with
        ⟨kernel, more, executed, rfl⟩
      rcases off_of_creates isCreate executed with ⟨same, rfl⟩
      refine Or.inl ⟨booting.thread, booting.saved, same.trans booting.off, ?_⟩
      intro stmt' member
      exact booting.code stmt' (code ▸ List.mem_cons_of_mem _ member)
  | call op =>
      rcases step_call stepped with ⟨resting, allowed, rfl⟩
      have current : machine.kernel.curproc = machine.kernel.idleproc := by
        have typed := good.typed
        have thread := good.thread
        rw [resting] at typed
        cases typed
        rw [good.fits.idleproc, ← booting.thread, thread]
        exact good.fits.holds.curproc
      cases op with
      | idlemain =>
          exact Or.inr ⟨rfl, booting.thread, booting.saved, booting.off⟩
      | spawn desc =>
          exact Or.inl ⟨booting.thread, booting.saved, booting.off,
            creates_spawn layout desc _⟩
      | spawnuser desc =>
          exact Or.inl ⟨booting.thread, booting.saved, booting.off,
            creates_spawnuser layout desc _⟩
      | _ => simp [Op.allowed, current] at allowed

/-- A statement of a process other than the switch leaves the other threads
alone. -/
theorem run_of_process (good : Good phase machine) (process : machine.thread ≠ 0)
    (ran : Processor.step layout .run machine = some (.ok machine')) :
    (machine'.thread = machine.thread ∧ machine'.saved = machine.saved) ∨
      ∃ old rest, machine.code = .swtchToIdle old :: rest ∧ old ≠ 0 ∧
        machine' = { machine with
          saved := Function.update machine.saved old rest
          thread := 0
          code := machine.saved 0 } := by
  rcases code_of_run ran with ⟨stmt, rest, code⟩
  cases switch : isSwitch stmt with
  | false =>
      rcases exec_of_run code switch ran with ⟨kernel, more, _, rfl⟩
      exact Or.inl ⟨rfl, rfl⟩
  | true =>
      cases stmt with
      | swtchToIdle old =>
          rcases good.toIdle code with ⟨how, rfl, _⟩
          have other : old ≠ 0 := good.fits.holds.extra.1
          refine Or.inr ⟨old, rest, code, other, ?_⟩
          simp only [Processor.step, runStmt, code, good.fits.idlectx,
            Function.update_of_ne other.symm] at ran
          exact (Except.ok.inj (Option.some.inj ran)).symm
      | swtchFromIdle =>
          rcases good.fromIdle code with ⟨p, rfl, _⟩
          exact absurd good.thread process
      | _ => cases switch

/-- What the idle process switches to is not itself. -/
theorem curproc_of_switch {p : Nat} (good : Good phase machine)
    (code : machine.code = (Spot.switch p).code) :
    machine.kernel.curproc ≠ 0 := by
  rcases good.fromIdle code with ⟨p, rfl, _⟩
  have current : machine.kernel.curproc = p := good.fits.holds.curproc
  rw [current]
  exact good.fits.holds.extra

theorem Looping.step (looping : Looping machine) (good : Good phase machine)
    (stepped : step layout event machine = some (.ok machine')) :
    Looping machine' := by
  by_cases idle : machine.thread = 0
  · rcases looping.spot idle with ⟨spot, code, current⟩
    cases event with
    | tick =>
        rcases step_tick stepped with ⟨_, rfl⟩
        exact ⟨fun _ => ⟨spot, code, current⟩,
          fun process => absurd idle process⟩
    | call op =>
        exact absurd (code.symm.trans (step_call stepped).1) (code_ne_nil spot)
    | run =>
        by_cases isSwitch : ∃ p, spot = .switch p
        · rcases isSwitch with ⟨p, rfl⟩
          have process := curproc_of_switch good code
          rcases leaves_of_run code stepped with rfl
          refine ⟨fun isIdle => absurd isIdle process, fun _ => ?_⟩
          dsimp only
          rw [good.fits.idlectx, Function.update_self]
        · have notSwitch : ∀ p, spot ≠ .switch p :=
            fun p same => isSwitch ⟨p, same⟩
          rcases next_of_run code notSwitch stepped with
            ⟨spot', kernel, next, rfl⟩
          exact ⟨fun _ => ⟨spot', next.at⟩, fun process => absurd idle process⟩
  · have back := looping.back idle
    cases event with
    | tick =>
        rcases step_tick stepped with ⟨_, rfl⟩
        exact ⟨fun isIdle => absurd isIdle idle, fun _ => back⟩
    | call op =>
        rcases step_call stepped with ⟨_, _, rfl⟩
        exact ⟨fun isIdle => absurd isIdle idle, fun _ => back⟩
    | run =>
        rcases run_of_process good idle stepped with
          ⟨thread, saved⟩ | ⟨old, rest, _, _, rfl⟩
        · exact ⟨fun isIdle => absurd (thread.symm.trans isIdle) idle,
            fun _ => (congrFun saved 0).trans back⟩
        · exact ⟨fun _ => ⟨.back, back, by simp⟩,
            fun process => absurd rfl process⟩

end Steps

end Rt64.Kernel.IdleLoop
