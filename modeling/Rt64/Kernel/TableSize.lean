import Rt64.Kernel.UserMemory

/-!
# The size of the process table

`spawn` and `spawnuser` do not look at the size of the table.  A call that is made
when all of the entries are taken passes the check of its priority and then writes
to an entry that is not there.  Where that is depends on the layout, so the model
stops at the write.  Up to it every entry and every stack that is handed out is
one of those that there are.
-/

namespace Rt64.Kernel.TableSize

open Rt64.Lib.ByteMemory
open Rt64.Lib.Transition
open Rt64.Include.Defs
open Rt64.Kernel.Paging
open Rt64.Kernel.PageTree
open Rt64.Kernel.PagingRange
open Rt64.Kernel.PagingDeepcopy
open Rt64.Kernel.Process
open Rt64.Kernel.Spawn
open Rt64.Kernel.Isolation
open Rt64.Kernel.Processor
open Rt64.Kernel.Scheduler
open Rt64.Kernel.Threads
open Rt64.Kernel.Contracts
open Rt64.Kernel.Main
open Rt64.Kernel.ProcessTable
open Rt64.Kernel.UserMemory

/-! ## Calls on a full table -/

/-- The function that is called. -/
def site : Call → Site
  | .spawn _ => .spawn
  | .spawnuser _ => .spawnuser

/-- The first statement of a call. -/
def check (call : Call) : Stmt :=
  checkPrio (site call) call.desc

/-- `p->state = RESERVE` with `p` behind the table. -/
def behind (p : Nat) : Stmt :=
  .plain fun _ => .error (.bounds .allocproc p)

/-- The statements of a call while `nproc` is `p`, whatever `p` is. -/
def callCode (layout : Layout) (call : Call) (p : Nat) : List Stmt :=
  if p < maxProc then call.code layout p else [check call, behind p]

/-- The call that an event is, if it is one that creates a process. -/
def creates : Event → Option Call
  | .call (.spawn desc) => some (.spawn desc)
  | .call (.spawnuser desc) => some (.spawnuser desc)
  | _ => none

/-- A step of the machine where a process may be created however many there are. -/
def freeStep (layout : Layout) (event : Event) (machine : Machine) :
    Option (Except Halt Machine) :=
  match creates event with
  | some call =>
      if machine.code.isEmpty then
        some (.ok { machine with
          code := callCode layout call machine.kernel.nproc })
      else none
  | none => step layout event machine

theorem eq_of_creates {event : Event} {call : Call}
    (isCall : creates event = some call) : event = .call (callOp call) := by
  unfold creates at isCall
  split at isCall
  · rw [← Option.some.inj isCall]
    rfl
  · rw [← Option.some.inj isCall]
    rfl
  · cases isCall

section Steps

variable {layout : Layout} {machine machine' : Machine} {call : Call}

/-- As long as there is room, the call is a step of the other machine too. -/
theorem step_of_room (resting : machine.code = [])
    (room : machine.kernel.nproc < maxProc) :
    step layout (.call (callOp call)) machine =
      some (.ok { machine with
        code := callCode layout call machine.kernel.nproc }) := by
  rw [callCode, if_pos room]
  cases call <;>
    simp [step, callOp, Op.allowed, Op.enter, Op.code, Call.code, resting, room]

theorem freeStep_of_step {event : Event}
    (stepped : step layout event machine = some (.ok machine')) :
    freeStep layout event machine = some (.ok machine') := by
  rw [freeStep]
  split
  · rename_i call isCall
    rw [eq_of_creates isCall] at stepped
    rcases created_of_call stepped with ⟨resting, room, rfl⟩
    rw [if_pos (List.isEmpty_iff.mpr resting), callCode, if_pos room]
  · exact stepped

/-- What a call leaves to do that was made on a full table. -/
inductive Stuck (base : Machine) : Machine → Prop
  | called (call : Call) :
      Stuck base { base with code := [check call, behind base.kernel.nproc] }
  | checked : Stuck base { base with code := [behind base.kernel.nproc] }

theorem Stuck.kernel {base : Machine} (stuck : Stuck base machine) :
    machine.kernel = base.kernel := by
  cases stuck <;> rfl

theorem Stuck.code_ne_nil {base : Machine} (stuck : Stuck base machine) :
    machine.code ≠ [] := by
  cases stuck <;> exact List.cons_ne_nil _ _

theorem exec_check {kernel kernel' : KernelState} {more : List Stmt}
    (passed : (check call).exec kernel = .ok (kernel', more)) :
    kernel' = kernel ∧ more = [] := by
  rw [check, checkPrio, Stmt.exec, assert_bind_eq_ok] at passed
  rcases Prod.mk.inj (Except.ok.inj passed.2) with ⟨rfl, rfl⟩
  exact ⟨rfl, rfl⟩

/-- Between the call and the write there is only the check. -/
theorem Stuck.run {base : Machine} (stuck : Stuck base machine)
    (ran : step layout .run machine = some (.ok machine')) :
    Stuck base machine' := by
  rw [step] at ran
  cases stuck with
  | called call =>
      rw [runStmt_eq rfl rfl] at ran
      have ran := Option.some.inj ran
      rw [bind_eq_ok] at ran
      rcases ran with ⟨⟨kernel, more⟩, passed, returned⟩
      rcases exec_check passed with ⟨rfl, rfl⟩
      rw [← Except.ok.inj returned]
      exact .checked
  | checked =>
      have failed := Option.some.inj ran
      cases failed

theorem Stuck.tick {base : Machine} (stuck : Stuck base machine) :
    Stuck { base with kernel := timerTrap base.kernel }
      { machine with kernel := timerTrap machine.kernel } := by
  cases stuck with
  | called call => exact .called call
  | checked => exact .checked

/-- The machine has got where the other one can get to, or is in a call that was
made there on a full table. -/
def Follows (layout : Layout) (kernel : KernelState) (machine : Machine) : Prop :=
  ∃ base, Reaches (step layout) (start kernel) base ∧
    (machine = base ∨ base.code = [] ∧ Stuck base machine)

theorem Follows.step {kernel : KernelState} {event : Event}
    (follows : Follows layout kernel machine)
    (stepped : freeStep layout event machine = some (.ok machine')) :
    Follows layout kernel machine' := by
  rcases follows with ⟨base, reaches, rfl | ⟨resting, stuck⟩⟩
  · rw [freeStep] at stepped
    split at stepped
    · rename_i call isCall
      split at stepped
      · rename_i empty
        have resting := List.isEmpty_iff.mp empty
        by_cases room : machine.kernel.nproc < maxProc
        · have taken := @step_of_room layout machine call resting room
          exact ⟨machine', reaches.tail (taken.trans stepped), .inl rfl⟩
        · refine ⟨machine, reaches, .inr ⟨resting, ?_⟩⟩
          rw [← Except.ok.inj (Option.some.inj stepped), callCode, if_neg room]
          exact .called call
      · cases stepped
    · exact ⟨machine', reaches.tail stepped, .inl rfl⟩
  · -- no call starts before the one in progress is over
    have busy : machine.code.isEmpty = false :=
      List.isEmpty_eq_false_iff.mpr stuck.code_ne_nil
    cases event with
    | run =>
        have ran : Processor.step layout .run machine = _ := stepped
        exact ⟨base, reaches, .inr ⟨resting, stuck.run ran⟩⟩
    | tick =>
        have ticked : Processor.step layout .tick machine = _ := stepped
        rcases step_tick ticked with ⟨interruptible, rfl⟩
        rw [stuck.kernel] at interruptible
        have here : Processor.step layout .tick base =
            some (.ok { base with kernel := timerTrap base.kernel }) :=
          if_pos interruptible
        exact ⟨_, reaches.tail here, .inr ⟨resting, stuck.tick⟩⟩
    | call op =>
        rw [freeStep] at stepped
        split at stepped
        · rw [busy] at stepped
          cases stepped
        · exact absurd (step_call stepped).1 stuck.code_ne_nil

end Steps

theorem follows_of_path {layout : Layout} {kernel : KernelState}
    {steps : List (Event × Machine)} {machine : Machine}
    (path : Path (freeStep layout) (start kernel) steps machine) :
    Follows layout kernel machine :=
  path.invariant (fun _ _ _ follows => follows.step)
    ⟨_, .refl _, .inl rfl⟩

/-! ## One call -/

section Calls

variable {layout : Layout} {kernel : KernelState} {call : Call}

theorem callCode_cons (layout : Layout) (call : Call) (p : Nat) :
    ∃ rest, callCode layout call p = check call :: rest := by
  rw [callCode]
  split
  · cases call <;> exact ⟨_, rfl⟩
  · exact ⟨_, rfl⟩

/-- A call with a priority out of range panics before it touches anything. -/
theorem execAll_of_not_prioValid (wrong : ¬ PrioValid call.desc) (p : Nat) :
    execAll kernel (callCode layout call p) =
      .error (.panic (site call)
        "MINPRIO <= desc->prio && desc->prio <= MAXPRIO") := by
  rcases callCode_cons layout call p with ⟨rest, shape⟩
  have fails : ¬ decide (minprio ≤ call.desc.prio ∧
      call.desc.prio ≤ maxprio) = true := by
    rw [decide_eq_true_iff]
    exact wrong
  have failed : (check call).exec kernel = .error (.panic (site call)
      "MINPRIO <= desc->prio && desc->prio <= MAXPRIO") := by
    rw [check, checkPrio, Stmt.exec, assert, if_neg fails]
    rfl
  rw [shape, execAll, List.foldlM_cons, failed]
  rfl

theorem execAll_of_full (valid : PrioValid call.desc)
    (full : ¬ kernel.nproc < maxProc) :
    execAll kernel (callCode layout call kernel.nproc) =
      .error (.bounds .allocproc kernel.nproc) := by
  rw [callCode, if_neg full, check, execAll_checkPrio _ valid]
  rfl

theorem execAll_of_room (bootable : Bootable layout) {user : BitVec 64 → Prop}
    (spaces : KernelSpaces layout kernel user)
    (room : kernel.nproc < maxProc) (valid : PrioValid call.desc) :
    ∃ kernel', execAll kernel (callCode layout call kernel.nproc) =
        .ok kernel' ∧ Entered layout (rootOf call) kernel kernel' := by
  rcases spaces_call bootable.valid spaces room valid with ⟨kernel', ran, -⟩
  exact ⟨kernel', by rw [callCode, if_pos room, ran],
    entered_of_execAll room ran⟩

/-- The call that gets behind the table. -/
theorem overrun_iff (bootable : Bootable layout) {user : BitVec 64 → Prop}
    (spaces : KernelSpaces layout kernel user)
    (bounded : kernel.nproc ≤ maxProc) (p : Nat) :
    execAll kernel (callCode layout call kernel.nproc) =
        .error (.bounds .allocproc p) ↔
      PrioValid call.desc ∧ kernel.nproc = maxProc ∧ p = maxProc := by
  by_cases valid : PrioValid call.desc
  · by_cases room : kernel.nproc < maxProc
    · rcases execAll_of_room bootable spaces room valid with ⟨kernel', ran, -⟩
      rw [ran]
      exact iff_of_false nofun fun full => absurd full.2.1 room.ne
    · have full : kernel.nproc = maxProc :=
        Nat.le_antisymm bounded (Nat.not_lt.mp room)
      rw [execAll_of_full valid room, full]
      constructor
      · intro same
        cases same
        exact ⟨valid, rfl, rfl⟩
      · rintro ⟨-, -, rfl⟩
        rfl
  · rw [execAll_of_not_prioValid valid]
    exact iff_of_false nofun fun full => valid full.1

end Calls

/-! ## Runs -/

/-- What has been handed out, up to a call on a full table, is in range. -/
structure InRange (layout : Layout) (kernel : KernelState) : Prop where
  bounded : kernel.nproc ≤ maxProc
  entries : ∀ p, (kernel.procs p).state ≠ .uninit → p < maxProc
  kstacks : ∀ p, 0 < p → Live kernel p →
    (kernel.slot p).pid = p ∧ (kernel.slot p).kstack = kstackAddr layout p

theorem Started.inRange {layout : Layout} {machine : Machine}
    (started : Started layout machine) : InRange layout machine.kernel := by
  rcases ProcessTable.Started.table started with ⟨phase, good, upholds⟩
  have table := (upholds.always (tableRules layout) good).1
  have holds := good.fits.holds
  refine ⟨holds.bounded, fun p inUse => holds.lt_maxProc inUse, ?_⟩
  intro p process live
  exact ⟨table.pid p process (table.below p live),
    table.kstack p process live⟩

/--
In every run, up to a write behind the table, each entry and each stack that was
handed out is one of the `MAX_PROC` that there are: the entries, the kernel stacks
by the number of their process, and the user stacks as the pages that user mode can
reach.  When a thread makes a call that creates a process, the call writes behind
the table exactly if its priority is valid and all `MAX_PROC` entries are taken; if
one is left, it is the one that the call hands out.
-/
theorem process_table_capacity {layout : Layout} (bootable : Bootable layout)
    {index : Byte} {fuel : Nat} {mem : Memory} {kernel : KernelState}
    (booted : main layout index fuel mem = .ok kernel)
    {steps : List (Event × Machine)} {machine : Machine}
    (path : Path (freeStep layout) (start kernel) steps machine) :
    InRange layout machine.kernel ∧
      (machine.code = [] → ∀ va, Canonical va →
        (UserAccessible machine.kernel.mem machine.kernel.image.upml4 va ↔
          UserSection layout va ∨ ∃ p < maxProc, IsUser machine.kernel p ∧
            Within (ustackAddr layout p) 4096 va)) ∧
      (machine.code = [] → ∀ call : Call,
        (PrioValid call.desc → machine.kernel.nproc < maxProc →
          ∃ kernel', execAll machine.kernel
              (callCode layout call machine.kernel.nproc) = .ok kernel' ∧
            Entered layout (rootOf call) machine.kernel kernel') ∧
        ∀ p, execAll machine.kernel
              (callCode layout call machine.kernel.nproc) =
            .error (.bounds .allocproc p) ↔
          PrioValid call.desc ∧ machine.kernel.nproc = maxProc ∧
            p = maxProc) := by
  rcases follows_of_path path with ⟨base, ⟨steps', path'⟩, same⟩
  have started : Started layout base :=
    ⟨index, fuel, mem, kernel, booted, steps', path'⟩
  have inRange := Started.inRange started
  rcases same with rfl | ⟨-, stuck⟩
  · refine ⟨inRange, ?_, ?_⟩
    · intro resting va canonical
      rcases inOrder_of_path bootable booted path' resting with
        ⟨free, allocated, -, inOrder⟩
      rw [KernelState.mem, userAccessible_iff inOrder.spaces canonical]
      refine or_congr_right (exists_congr fun p => ?_)
      exact (and_iff_right_of_imp fun opened =>
        inRange.entries p opened.1.1.1).symm
    · intro resting call
      rcases inOrder_of_path bootable booted path' resting with
        ⟨free, allocated, -, inOrder⟩
      exact ⟨fun valid room =>
          execAll_of_room bootable inOrder.spaces room valid,
        overrun_iff bootable inOrder.spaces inRange.bounded⟩
  · rw [stuck.kernel]
    exact ⟨inRange, fun resting => absurd resting stuck.code_ne_nil,
      fun resting => absurd resting stuck.code_ne_nil⟩

/-- After its creation the first user process has the entry, the kernel stack and
the user stack of its number. -/
theorem process_table_capacity_first_call :
    ∃ kernel steps kernel',
      main sampleLayout 0 (2 ^ 53) (fun _ => 0) = .ok kernel ∧
      Path (freeStep sampleLayout) (start kernel) steps (start kernel') ∧
      kernel'.nproc = 2 ∧ InRange sampleLayout kernel' ∧
      (kernel'.slot 1).kstack = kstackAddr sampleLayout 1 ∧
      UserAccessible kernel'.mem kernel'.image.upml4
        (ustackAddr sampleLayout 1) := by
  rcases @sample_call (.spawnuser sampleDesc) sampleDesc_prioValid with
    ⟨kernel, kernel', booted, ⟨steps, path⟩, entered⟩
  have one := (initial_of_main booted).nproc
  have path := path.mono fun _ _ _ => freeStep_of_step
  rcases process_table_capacity sampleLayout_bootable booted path with
    ⟨inRange, reached, -⟩
  have kstack := entered.kstack
  have root := entered.ptRoot
  have live : Live kernel' 1 := by
    rcases entered.built with ⟨heap, slot, rfl⟩
    rw [one]
    simp [Live, built]
  rw [one] at kstack root
  refine ⟨kernel, steps, kernel', booted, path, ?_, inRange, kstack, ?_⟩
  · rw [entered.nproc, one]
  · exact (reached rfl _ (.inr (by decide))).mpr
      (.inr ⟨1, by decide, ⟨live, root⟩, by decide⟩)

/-! ## The call that gets behind the table -/

section Spawns

variable {layout : Layout} {desc : NewProcDesc} (prioValid : PrioValid desc)
include prioValid

/-- `spawn` gets through if it is not interrupted and has room. -/
theorem path_spawn (kernel : KernelState) (room : kernel.nproc < maxProc) :
    ∃ steps kernel',
      Path (freeStep layout) (start kernel) steps (start kernel') ∧
        kernel'.nproc = kernel.nproc + 1 := by
  have code : callCode layout (.spawn desc) kernel.nproc =
      spawn layout desc kernel.nproc := if_pos room
  have called : step layout (.call (callOp (.spawn desc))) (start kernel) =
      some (.ok { start kernel with
        code := callCode layout (.spawn desc) kernel.nproc }) :=
    step_of_room rfl room
  rw [code] at called
  have ran := spawn_eq layout prioValid kernel
  rcases path_of_script layout (script_spawn layout desc) ran 0
    (fun _ => []) with ⟨steps, path⟩
  have whole : Path (step layout) (start kernel) _ (start _) := .cons called path
  exact ⟨_, _, whole.mono fun _ _ _ => freeStep_of_step,
    (entered_of_spawn prioValid ran).nproc⟩

/-- The boot thread can go on creating processes as long as there is room. -/
theorem path_spawns {more : Nat} (kernel : KernelState)
    (room : kernel.nproc + more ≤ maxProc) :
    ∃ steps kernel',
      Path (freeStep layout) (start kernel) steps (start kernel') ∧
        kernel'.nproc = kernel.nproc + more := by
  induction more with
  | zero => exact ⟨[], kernel, .nil _, rfl⟩
  | succ more induction =>
      rcases induction (by omega) with ⟨steps, middle, path, count⟩
      rcases @path_spawn layout desc prioValid middle (by omega) with
        ⟨steps', kernel', path', one⟩
      exact ⟨_, kernel', path.append path', by omega⟩

end Spawns

/-- The eighth process that is created after `main` is to have the entry behind
the last one. -/
theorem process_table_overrun :
    ∃ kernel steps machine,
      main sampleLayout 0 (2 ^ 53) (fun _ => 0) = .ok kernel ∧
      Path (freeStep sampleLayout) (start kernel) steps machine ∧
      machine.kernel.nproc = maxProc ∧
      freeStep sampleLayout .run machine =
        some (.error (.bounds .allocproc maxProc)) := by
  rcases sample_main with ⟨kernel, booted⟩
  have one := (initial_of_main booted).nproc
  rcases @path_spawns sampleLayout _ sampleDesc_prioValid 7 kernel
    (by rw [one]) with ⟨steps, last, path, count⟩
  have full : last.nproc = maxProc := by rw [count, one]
  have called : freeStep sampleLayout (.call (.spawn sampleDesc)) (start last) =
      some (.ok { start last with
        code := [checkPrio .spawn sampleDesc, behind maxProc] }) := by
    have code : callCode sampleLayout (.spawn sampleDesc) last.nproc =
        [checkPrio .spawn sampleDesc, behind maxProc] := by
      rw [full]
      rfl
    rw [← code]
    rfl
  have checked : freeStep sampleLayout .run { start last with
        code := [checkPrio .spawn sampleDesc, behind maxProc] } =
      some (.ok { start last with code := [behind maxProc] }) := rfl
  exact ⟨kernel, _, _, booted,
    path.append (.cons called (.cons checked (.nil _))), full, rfl⟩

end Rt64.Kernel.TableSize
