import Rt64.Kernel.Processor
import Rt64.Kernel.Rounds

/-!
# The scheduler as a state machine

The statements of the kernel's functions carry out the moves of the abstract
scheduler.  `Typed` says which statements a thread may have left in which phase;
running the first of them makes a move to a phase for which the rest is typed,
and switching takes up statements that are typed for the thread switched to.
None of the checks on the way can fail.

So every run of the machine, with timer traps wherever interrupts are on, is a
run of the abstract scheduler, and what that does to the process table holds of
the code.
-/

namespace Rt64.Kernel.Scheduler

open Rt64.Lib.ByteMemory
open Rt64.Lib.Transition
open Rt64.Include.Defs
open Rt64.Kernel.Kalloc
open Rt64.Kernel.Paging
open Rt64.Kernel.Process
open Rt64.Kernel.Processor
open Rt64.Kernel.Rounds

/-! ## Failures outside the scheduler -/

/-- The functions whose checks are never to fail. -/
def schedulerSites : List Site :=
  [.sched, .yield, .sleep, .exit, .idlemain, .setTaskKstack]

/-- A panic in one of these functions. -/
def FromScheduler : Halt → Prop
  | .panic site _ => site ∈ schedulerSites
  | .bounds _ _ | .fuel => False

/-- If the computation fails, the failure is not one of the scheduler's. -/
def Outside {α : Type} (result : Except Halt α) : Prop :=
  ∀ halt, result = .error halt → ¬ FromScheduler halt

section Outside

variable {α β : Type}

theorem outside_ok (value : α) : Outside (.ok value : Except Halt α) := by
  intro halt failed
  cases failed

theorem outside_panic {site : Site} (text : String)
    (other : site ∉ schedulerSites) :
    Outside (.error (.panic site text) : Except Halt α) := by
  intro halt failed
  cases failed
  exact other

theorem outside_assert {site : Site} (text : String) (condition : Prop)
    [Decidable condition] (other : site ∉ schedulerSites) :
    Outside (assert site text condition) := by
  unfold assert
  split
  · exact outside_ok ()
  · exact outside_panic text other

theorem outside_bind {first : Except Halt α} {next : α → Except Halt β}
    (outsideFirst : Outside first) (outsideNext : ∀ value, Outside (next value)) :
    Outside (first >>= next) := by
  cases first with
  | error halt =>
      intro halt' failed
      exact outsideFirst halt' (congrArg Except.error (Except.error.inj failed))
  | ok value => exact outsideNext value

theorem outside_kalloc (heap : Heap) : Outside (kalloc heap) :=
  outside_bind (outside_assert _ _ (by decide)) fun _ => outside_ok _

theorem outside_safeSetent (pt : Addr) (idx : Nat) (ent : BitVec 64)
    (heap : Heap) : Outside (safeSetent pt idx ent heap) :=
  outside_bind (outside_assert _ _ (by decide)) fun _ => outside_ok _

theorem outside_safeNextptMayalloc (pt : Addr) (idx : Nat) (heap : Heap) :
    Outside (safeNextptMayalloc pt idx heap) := by
  unfold safeNextptMayalloc
  dsimp only
  split
  · exact outside_bind (outside_assert _ _ (by decide)) fun _ => outside_ok _
  · exact outside_bind (outside_kalloc heap) fun _ =>
      outside_bind (outside_safeSetent _ _ _ _) fun _ => outside_ok _

theorem outside_pagingMap4K (pml4 : Addr) (va pa flags : BitVec 64)
    (heap : Heap) : Outside (pagingMap4K pml4 va pa flags heap) := by
  refine outside_bind (outside_assert _ _ (by decide)) fun _ => ?_
  refine outside_bind (outside_assert _ _ (by decide)) fun _ => ?_
  refine outside_bind (outside_safeNextptMayalloc _ _ _) fun _ => ?_
  refine outside_bind (outside_safeNextptMayalloc _ _ _) fun _ => ?_
  exact outside_bind (outside_safeNextptMayalloc _ _ _) fun _ => outside_ok _

theorem outside_pagingMapLoop (pml4 : Addr) (va pa sz flags : BitVec 64)
    (heap : Heap) : Outside (pagingMapLoop pml4 va pa sz flags heap) := by
  induction va, pa, sz, heap using pagingMapLoop.induct with
  | case1 va pa sz heap positive whole induction =>
      rw [pagingMapLoop, dif_pos positive, dif_pos whole]
      exact outside_bind (outside_pagingMap4K _ _ _ _ _) induction
  | case2 va pa sz heap positive ragged =>
      rw [pagingMapLoop, dif_pos positive, dif_neg ragged]
      exact outside_panic _ (by decide)
  | case3 va pa sz heap done =>
      rw [pagingMapLoop, dif_neg done]
      exact outside_ok heap

theorem outside_pagingMap (pml4 : Addr) (va pa sz flags : BitVec 64)
    (heap : Heap) : Outside (pagingMap pml4 va pa sz flags heap) := by
  refine outside_bind (outside_assert _ _ (by decide)) fun _ => ?_
  refine outside_bind (outside_assert _ _ (by decide)) fun _ => ?_
  refine outside_bind (outside_assert _ _ (by decide)) fun _ => ?_
  exact outside_pagingMapLoop _ _ _ _ _ _

theorem outside_mapUstack (layout : Layout) (p : Nat) (kernel : KernelState) :
    Outside (mapUstack layout p kernel) :=
  outside_bind (outside_pagingMap _ _ _ _ _ _) fun _ => outside_ok _

end Outside

/-! ## Statements in a phase -/

/-- The scheduler's variables of a kernel. -/
def core (kernel : KernelState) : Core where
  procs := kernel.procs
  nproc := kernel.nproc
  curproc := kernel.curproc
  cursor := kernel.cursor

/-- The kernel is in the given phase. -/
structure Fits (phase : Phase) (kernel : KernelState) : Prop where
  idleproc : kernel.idleproc = 0
  idlectx : kernel.idlectx = 0
  holds : Holds phase (core kernel)
  masked : phase.masked = true → kernel.interruptible = false

theorem Fits.move {phase phase' : Phase} {kernel kernel' : KernelState}
    (fits : Fits phase kernel)
    (move : Move phase (core kernel) phase' (core kernel'))
    (idleproc : kernel'.idleproc = kernel.idleproc)
    (idlectx : kernel'.idlectx = kernel.idlectx)
    (masked : phase'.masked = true → kernel'.interruptible = false) :
    Fits phase' kernel' :=
  ⟨idleproc.trans fits.idleproc, idlectx.trans fits.idlectx,
    fits.holds.move move, masked⟩

/-- The statements that a thread may have left in a phase. -/
inductive Typed : Phase → List Stmt → Prop where
  | done (t : Nat) : Typed (.own t) []
  | check {phase : Phase} {site : Site} {text : String}
      {condition : KernelState → Bool} {rest : List Stmt}
      (passes : site ∈ schedulerSites →
        ∀ kernel, Fits phase kernel → condition kernel = true)
      (after : Typed phase rest) :
      Typed phase (.check site text condition :: rest)
  | plain {phase : Phase} {act : KernelState → Except Halt Image}
      {rest : List Stmt} (outside : ∀ kernel, Outside (act kernel))
      (after : Typed phase rest) : Typed phase (.plain act :: rest)
  | cprintf {phase : Phase} {format : String} {args : List Arg}
      {rest : List Stmt} (after : Typed phase rest) :
      Typed phase (.cprintf format args :: rest)
  | reserve {t p : Nat} {rest : List Stmt}
      (after : Typed (.reserving t p) rest) :
      Typed (.fresh t p) (.setState p .reserve :: rest)
  | takePid {t p : Nat} {rest : List Stmt}
      (after : Typed (.filling t p) rest) :
      Typed (.reserving t p) (.takePid p :: rest)
  | ready {t p : Nat} {rest : List Stmt} (after : Typed (.own t) rest) :
      Typed (.filling t p) (.setState p .runnable :: rest)
  | cli {t : Nat} {rest : List Stmt} (how : Leave) (process : t ≠ 0)
      (after : Typed (.quiet t how) rest) : Typed (.own t) (.cli :: rest)
  | give {t : Nat} {rest : List Stmt} (after : Typed (.left t .yield) rest) :
      Typed (.quiet t .yield) (.setCurState .runnable :: rest)
  | doze {t : Nat} {nticks : Int} {rest : List Stmt}
      (after : Typed (.stored t (.sleep nticks)) rest) :
      Typed (.quiet t (.sleep nticks)) (.setCurState .sleeping :: rest)
  | setSleeprem {t : Nat} {nticks : Int} {rest : List Stmt}
      (after : Typed (.left t (.sleep nticks)) rest) :
      Typed (.stored t (.sleep nticks)) (.setCurSleeprem nticks :: rest)
  | die {t : Nat} {retval : BitVec 64} {rest : List Stmt}
      (after : Typed (.stored t (.exit retval)) rest) :
      Typed (.quiet t (.exit retval)) (.setCurState .exited :: rest)
  | setRetval {t : Nat} {retval : BitVec 64} {rest : List Stmt}
      (after : Typed (.left t (.exit retval)) rest) :
      Typed (.stored t (.exit retval)) (.setCurRetval retval :: rest)
  | hand {t : Nat} {how : Leave} {rest : List Stmt}
      (after : Typed (.handed t how) rest) :
      Typed (.left t how) (.setCurprocIdle :: rest)
  /-- A process that has exited is not switched to again. -/
  | toIdle {t : Nat} {how : Leave} {rest : List Stmt}
      (after : how.state ≠ .exited → Typed (.own t) rest) :
      Typed (.handed t how) (.swtchToIdle t :: rest)
  | loop : Typed (.own 0) [.loop]
  | sti : Typed (.own 0) [.sti, .probe]
  | probe : Typed (.own 0) [.probe]
  | skip : Typed .skipping [.advance, .probe]
  | found (p : Nat) : Typed (.found p) [.advance, .choose (some p)]
  | chosen (p : Nat) : Typed (.chosen p) [.choose (some p)]
  | take {p : Nat} {rest : List Stmt} (after : Typed (.taken p) rest) :
      Typed (.chosen p) (.setCurproc p :: rest)
  | dispatch {p : Nat} {rest : List Stmt} (after : Typed (.sent p) rest) :
      Typed (.taken p) (.setCurState .running :: rest)
  | fromIdle {p : Nat} {rest : List Stmt} (after : Typed (.own 0) rest) :
      Typed (.sent p) (.swtchFromIdle :: rest)

/-- A thread about to run `sched` has stored all it has to store. -/
theorem left_of_sched {phase : Phase} {t : Nat} (rest : List Stmt)
    (typed : Typed phase (sched t ++ rest)) : ∃ how, phase = .left t how := by
  cases typed with
  | check _ typed =>
      cases typed with
      | check _ typed =>
          cases typed with
          | @hand _ how _ typed =>
              cases typed with
              | plain _ typed =>
                  cases typed with
                  | toIdle _ => exact ⟨how, rfl⟩

/-! ## The functions are typed -/

section Checks

variable {kernel : KernelState} {t p : Nat} {how : Leave}

theorem curRunning_of_own (fits : Fits (.own t) kernel) :
    kernel.curRunning = true := by
  have current : kernel.curproc = t := fits.holds.curproc
  have runs : (kernel.procs t).state = .running :=
    (fits.holds.running t).mpr (Or.inr rfl)
  simp [KernelState.curRunning, current, runs]

theorem not_curRunning_of_left (fits : Fits (.left t how) kernel) :
    (!kernel.curRunning) = true := by
  have current : kernel.curproc = t := fits.holds.curproc
  have state : (kernel.procs t).state = how.state := fits.holds.extra.2
  have other := leave_state_ne_running how
  simp [KernelState.curRunning, current, state, other]

theorem not_interruptible_of_left (fits : Fits (.left t how) kernel) :
    (!kernel.interruptible) = true := by
  simp [fits.masked rfl]

theorem curproc_ne_idleproc_of_own (process : t ≠ 0)
    (fits : Fits (.own t) kernel) :
    (kernel.curproc != kernel.idleproc) = true := by
  have current : kernel.curproc = t := fits.holds.curproc
  simp [current, fits.idleproc, process]

theorem curproc_ne_idleproc_of_sent (fits : Fits (.sent p) kernel) :
    (kernel.curproc != kernel.idleproc) = true := by
  have current : kernel.curproc = p := fits.holds.curproc
  have process : p ≠ 0 := fits.holds.extra
  simp [current, fits.idleproc, process]

theorem curproc_eq_idleproc_of_own (fits : Fits (.own 0) kernel) :
    (kernel.curproc == kernel.idleproc) = true := by
  have current : kernel.curproc = 0 := fits.holds.curproc
  simp [current, fits.idleproc]

end Checks

theorem outside_lcr3 (kernel : KernelState) : Outside (lcr3 kernel) :=
  outside_ok _

theorem outside_storeTss (kernel : KernelState) : Outside (storeTss kernel) :=
  outside_ok _

section Functions

variable {t p : Nat}

/-- `sched`, entered by a process that has stored its new state. -/
theorem typed_sched (how : Leave) {rest : List Stmt}
    (after : how.state ≠ .exited → t ≠ 0 ∧ Typed (.own t) rest) :
    Typed (.left t how) (sched t ++ rest) := by
  refine .check (fun _ _ => not_curRunning_of_left) ?_
  refine .check (fun _ _ => not_interruptible_of_left) ?_
  refine .hand (.plain outside_lcr3 (.toIdle ?_))
  intro returns
  rcases after returns with ⟨process, typed⟩
  exact .check (fun _ _ => curproc_ne_idleproc_of_own process) typed

theorem typed_yield (process : t ≠ 0) : Typed (.own t) (yield t) := by
  refine .check (fun _ _ => curRunning_of_own) ?_
  refine .cli .yield process (.give ?_)
  have typed := @typed_sched t .yield [] fun _ => ⟨process, .done t⟩
  rwa [List.append_nil] at typed

theorem typed_exit (retval : BitVec 64) (process : t ≠ 0) :
    Typed (.own t) (exit retval t) := by
  refine .check (fun _ _ => curRunning_of_own) ?_
  refine .cli (.exit retval) process (.die (.setRetval (.cprintf ?_)))
  exact typed_sched (.exit retval) fun returns => absurd rfl returns

theorem typed_sleep {nticks : Int} (positive : 0 < nticks)
    (process : t ≠ 0) : Typed (.own t) (sleep nticks t) := by
  unfold sleep
  rw [if_neg (by omega)]
  refine .check (fun _ _ _ => decide_eq_true (by omega)) ?_
  refine .check (fun _ _ => curRunning_of_own) ?_
  refine .cli (.sleep nticks) process (.doze (.setSleeprem ?_))
  have typed := @typed_sched t (.sleep nticks) []
    fun _ => ⟨process, .done t⟩
  rwa [List.append_nil] at typed

theorem typed_afterSwitch :
    Typed (.own 0)
      [.check .idlemain "curproc == curcpu->idleproc"
        fun kernel => kernel.curproc == kernel.idleproc, .loop] :=
  .check (fun _ _ => curproc_eq_idleproc_of_own) .loop

theorem typed_dispatch (p : Nat) : Typed (.chosen p) (dispatch p) := by
  refine .take (.dispatch (.plain outside_lcr3 ?_))
  refine .check (fun _ _ => curproc_ne_idleproc_of_sent) ?_
  exact .plain outside_storeTss (.fromIdle typed_afterSwitch)

theorem typed_write {phase : Phase} {rest : List Stmt}
    (mem : KernelState → Memory) (after : Typed phase rest) :
    Typed phase (write mem :: rest) :=
  .plain (fun _ => outside_ok _) after

theorem typed_writeSlot {phase : Phase} {rest : List Stmt}
    (slot : KernelState → Slot) (after : Typed phase rest) :
    Typed phase (writeSlot p slot :: rest) :=
  .plain (fun _ => outside_ok _) after

theorem typed_allocproc (layout : Layout) {rest : List Stmt}
    (after : Typed (.filling t p) rest) :
    Typed (.fresh t p) (allocproc layout p ++ rest) :=
  .reserve (.takePid (typed_write _ (typed_writeSlot _ after)))

theorem typed_spawn (layout : Layout) (desc : NewProcDesc) :
    Typed (.fresh t p) (spawn layout desc p) := by
  unfold spawn
  rw [List.append_assoc, List.append_assoc]
  refine .check (fun inScheduler => absurd inScheduler (by decide)) ?_
  refine typed_allocproc layout ?_
  refine typed_write _ (typed_writeSlot _ (typed_writeSlot _ ?_))
  refine typed_write _ (typed_write _ (typed_write _ (typed_write _ ?_)))
  exact typed_write _ (typed_write _ (typed_write _ (.ready (.done t))))

theorem typed_spawnuser (layout : Layout) (desc : NewProcDesc) :
    Typed (.fresh t p) (spawnuser layout desc p) := by
  unfold spawnuser
  rw [List.append_assoc, List.append_assoc]
  refine .check (fun inScheduler => absurd inScheduler (by decide)) ?_
  refine typed_allocproc layout ?_
  refine typed_write _ (typed_writeSlot _ (typed_writeSlot _ ?_))
  refine typed_write _ (typed_write _ (typed_write _ (typed_write _ ?_)))
  refine typed_writeSlot _ (typed_write _ (typed_write _ ?_))
  refine .plain (outside_mapUstack layout p) ?_
  refine typed_write _ (typed_write _ (typed_write _ (typed_write _ ?_)))
  refine typed_write _ (typed_write _ (typed_write _ (typed_write _ ?_)))
  exact .ready (.done t)

end Functions

/-! ## Running a statement -/

/-- A statement other than a switch makes a move, and what it leaves is typed
for the new phase. -/
structure Runs (phase : Phase) (kernel : KernelState) (rest : List Stmt)
    (kernel' : KernelState) (more : List Stmt) (phase' : Phase) : Prop where
  fits : Fits phase' kernel'
  typed : Typed phase' (more ++ rest)
  move : Move phase (core kernel) phase' (core kernel')
  thread : phase'.thread = phase.thread

section Exec

variable {phase phase' : Phase} {kernel kernel' : KernelState} {stmt : Stmt}
variable {rest more : List Stmt}

theorem runs_of_exec (success : stmt.exec kernel = .ok (kernel', more))
    (runs : Runs phase kernel rest kernel' more phase') :
    Outside (stmt.exec kernel) ∧
      ∀ kernel' more, stmt.exec kernel = .ok (kernel', more) →
        ∃ phase', Runs phase kernel rest kernel' more phase' := by
  rw [success]
  refine ⟨outside_ok _, ?_⟩
  intro kernel₁ more₁ same
  rcases Prod.mk.inj (Except.ok.inj same) with ⟨rfl, rfl⟩
  exact ⟨phase', runs⟩

theorem exec_typed (fits : Fits phase kernel)
    (typed : Typed phase (stmt :: rest)) (notSwitch : isSwitch stmt = false) :
    Outside (stmt.exec kernel) ∧
      ∀ kernel' more, stmt.exec kernel = .ok (kernel', more) →
        ∃ phase', Runs phase kernel rest kernel' more phase' := by
  have current := fits.holds.curproc
  cases typed with
  | @check _ site text condition _ passes after =>
      constructor
      · by_cases inScheduler : site ∈ schedulerSites
        · rw [Stmt.exec,
            assert_of_holds _ _ (passes inScheduler kernel fits)]
          exact outside_ok _
        · exact outside_bind (outside_assert _ _ inScheduler)
            fun _ => outside_ok _
      · intro kernel' more success
        rw [Stmt.exec, assert_bind_eq_ok] at success
        rcases Prod.mk.inj (Except.ok.inj success.2) with ⟨rfl, rfl⟩
        exact ⟨phase, fits, after, .stay _ _, rfl⟩
  | plain outside after =>
      constructor
      · exact outside_bind (outside kernel) fun _ => outside_ok _
      · intro kernel' more success
        rw [Stmt.exec, bind_eq_ok] at success
        rcases success with ⟨image, _, result⟩
        rcases Prod.mk.inj (Except.ok.inj result) with ⟨rfl, rfl⟩
        exact ⟨phase, fits.move (.stay _ _) rfl rfl fits.masked, after,
          .stay _ _, rfl⟩
  | cprintf after => exact runs_of_exec rfl ⟨fits, after, .stay _ _, rfl⟩
  | @reserve t p _ after =>
      have move := Move.reserve t p (core kernel)
      exact runs_of_exec rfl
        ⟨fits.move move rfl rfl nofun, after, move, rfl⟩
  | @takePid t p _ after =>
      have move := Move.takePid t p (core kernel)
      exact runs_of_exec rfl
        ⟨fits.move move rfl rfl nofun, after, move, rfl⟩
  | @ready t p _ after =>
      have move := Move.ready t p (core kernel)
      exact runs_of_exec rfl
        ⟨fits.move move rfl rfl nofun, after, move, rfl⟩
  | cli how process after =>
      have move := Move.mask how (core kernel) process
      exact runs_of_exec rfl
        ⟨fits.move move rfl rfl fun _ => rfl, after, move, rfl⟩
  | @give t _ after =>
      obtain rfl : kernel.curproc = t := current
      have move := Move.give kernel.curproc (core kernel)
      exact runs_of_exec rfl
        ⟨fits.move move rfl rfl fun _ => fits.masked rfl, after, move, rfl⟩
  | @doze t nticks _ after =>
      obtain rfl : kernel.curproc = t := current
      have move := Move.leave kernel.curproc (.sleep nticks) (core kernel)
      exact runs_of_exec rfl
        ⟨fits.move move rfl rfl fun _ => fits.masked rfl, after, move, rfl⟩
  | @setSleeprem t nticks _ after =>
      obtain rfl : kernel.curproc = t := current
      have move := Move.store kernel.curproc (.sleep nticks) (core kernel)
      exact runs_of_exec rfl
        ⟨fits.move move rfl rfl fun _ => fits.masked rfl, after, move, rfl⟩
  | @die t retval _ after =>
      obtain rfl : kernel.curproc = t := current
      have move := Move.leave kernel.curproc (.exit retval) (core kernel)
      exact runs_of_exec rfl
        ⟨fits.move move rfl rfl fun _ => fits.masked rfl, after, move, rfl⟩
  | @setRetval t retval _ after =>
      obtain rfl : kernel.curproc = t := current
      have move := Move.store kernel.curproc (.exit retval) (core kernel)
      exact runs_of_exec rfl
        ⟨fits.move move rfl rfl fun _ => fits.masked rfl, after, move, rfl⟩
  | @hand t how _ after =>
      have move : Move (.left t how) (core kernel) (.handed t how)
          (core { kernel with curproc := kernel.idleproc }) := by
        rw [fits.idleproc]
        exact Move.hand t how (core kernel)
      exact runs_of_exec rfl
        ⟨fits.move move rfl rfl fun _ => fits.masked rfl, after, move, rfl⟩
  | toIdle after => cases notSwitch
  | loop =>
      exact runs_of_exec rfl ⟨fits, .sti, .stay _ _, rfl⟩
  | sti =>
      have move := Move.stay (.own 0) (core kernel)
      exact runs_of_exec rfl
        ⟨fits.move move rfl rfl nofun, .probe, move, rfl⟩
  | probe =>
      by_cases runnable : (kernel.procs kernel.cursor).state = .runnable
      · have move := @Move.hit (core kernel) runnable
        refine runs_of_exec (if_pos runnable)
          ⟨fits.move move rfl rfl nofun, .found _, move, rfl⟩
      · have move := @Move.miss (core kernel) runnable
        refine runs_of_exec (if_neg runnable)
          ⟨fits.move move rfl rfl nofun, .skip, move, rfl⟩
  | skip =>
      have move := Move.skip (core kernel)
      exact runs_of_exec rfl
        ⟨fits.move move rfl rfl nofun, .probe, move, rfl⟩
  | found p =>
      have move := Move.choose p (core kernel)
      exact runs_of_exec rfl
        ⟨fits.move move rfl rfl nofun, .chosen p, move, rfl⟩
  | chosen p =>
      exact runs_of_exec rfl
        ⟨fits, (List.append_nil _).symm ▸ typed_dispatch p, .stay _ _, rfl⟩
  | @take p _ after =>
      have move := Move.take p (core kernel)
      exact runs_of_exec rfl
        ⟨fits.move move rfl rfl nofun, after, move, rfl⟩
  | @dispatch p _ after =>
      obtain rfl : kernel.curproc = p := current
      have move := Move.dispatch kernel.curproc (core kernel)
      exact runs_of_exec rfl
        ⟨fits.move move rfl rfl nofun, after, move, rfl⟩
  | fromIdle after => cases notSwitch

end Exec

/-! ## Running the machine -/

/--
The machine is in the given phase: the statements left are typed for it, those
of the other processes are typed for the time when they run again, unless they
have exited, and while a process runs, so are those of the idle process.
-/
structure Good (phase : Phase) (machine : Machine) : Prop where
  fits : Fits phase machine.kernel
  thread : machine.thread = phase.thread
  typed : Typed phase machine.code
  saved : ∀ t, t ≠ 0 → (core machine.kernel).state t ≠ .exited →
    Typed (.own t) (machine.saved t)
  idleSaved : phase.thread ≠ 0 → Typed (.own 0) (machine.saved 0)

/-- One step of the abstract scheduler. -/
inductive Next (phase : Phase) (before : Core) :
    Event → Phase → Core → Prop where
  | move {event : Event} {phase' : Phase} {after : Core}
      (notTick : event ≠ .tick) (move : Move phase before phase' after) :
      Next phase before event phase' after
  | tick (unmasked : phase.masked = false) :
      Next phase before .tick phase before.tick

/-- A move or a timer trap does not bring an exited process back. -/
theorem exited_of_move {phase phase' : Phase} {before after : Core} {q : Nat}
    (holds : Holds phase before) (move : Move phase before phase' after)
    (exited : before.state q = .exited) : after.state q = .exited := by
  rcases holds.change move q with same | change
  · rw [Core.state, same]
    exact exited
  · exact change.exited exited

section Steps

variable {phase : Phase} {machine : Machine} (good : Good phase machine)
include good

theorem Good.move {phase' : Phase} {kernel : KernelState} {code : List Stmt}
    (fits : Fits phase' kernel) (typed : Typed phase' code)
    (move : Move phase (core machine.kernel) phase' (core kernel))
    (thread : phase'.thread = phase.thread) :
    Good phase' { machine with kernel, code } where
  fits := fits
  thread := good.thread.trans thread.symm
  typed := typed
  saved := fun t process alive => good.saved t process fun exited =>
    alive (exited_of_move good.fits.holds move exited)
  idleSaved := fun process => good.idleSaved (thread ▸ process)

/-- The switch from a process to the idle process. -/
theorem Good.toIdle {old : Nat} {rest : List Stmt}
    (code : machine.code = .swtchToIdle old :: rest) :
    ∃ how, phase = .handed old how ∧
      Good (.own 0) { machine with
        saved := Function.update machine.saved old rest
        thread := machine.kernel.idlectx
        code := Function.update machine.saved old rest
          machine.kernel.idlectx } := by
  have typed := good.typed
  rw [code] at typed
  cases typed with
  | @toIdle _ how _ after =>
      have process : old ≠ 0 := good.fits.holds.extra.1
      have state : (core machine.kernel).state old = how.state :=
        good.fits.holds.extra.2
      have idle : Function.update machine.saved old rest 0 =
          machine.saved 0 := Function.update_of_ne process.symm _ _
      have move := Move.toIdle old how (core machine.kernel)
      refine ⟨how, rfl, good.fits.move move rfl rfl nofun,
        good.fits.idlectx, ?_, ?_, fun impossible => absurd rfl impossible⟩
      · dsimp only
        rw [good.fits.idlectx, idle]
        exact good.idleSaved process
      · intro t isProcess alive
        dsimp only at alive ⊢
        by_cases same : t = old
        · subst same
          rw [Function.update_self]
          rw [state] at alive
          exact after alive
        · rw [Function.update_of_ne same]
          exact good.saved t isProcess alive

/-- The switch from the idle process to the process it has chosen. -/
theorem Good.fromIdle {rest : List Stmt}
    (code : machine.code = .swtchFromIdle :: rest) :
    ∃ p, phase = .sent p ∧
      Good (.own p) { machine with
        saved := Function.update machine.saved machine.kernel.idlectx rest
        thread := machine.kernel.curproc
        code := Function.update machine.saved machine.kernel.idlectx rest
          machine.kernel.curproc } := by
  have typed := good.typed
  rw [code] at typed
  cases typed with
  | @fromIdle p _ after =>
      have process : p ≠ 0 := good.fits.holds.extra
      have current : machine.kernel.curproc = p := good.fits.holds.curproc
      have runs : (core machine.kernel).state p = .running :=
        (good.fits.holds.running p).mpr (Or.inr rfl)
      have move := Move.fromIdle p (core machine.kernel)
      refine ⟨p, rfl, good.fits.move move rfl rfl nofun, current, ?_, ?_, ?_⟩
      · dsimp only
        rw [good.fits.idlectx, current, Function.update_of_ne process]
        exact good.saved p process (by simp [runs])
      · intro t isProcess alive
        dsimp only
        rw [good.fits.idlectx, Function.update_of_ne isProcess]
        exact good.saved t isProcess alive
      · intro _
        dsimp only
        rw [good.fits.idlectx, Function.update_self]
        exact after

theorem Good.runStmt {result : Except Halt Machine}
    (stepped : runStmt machine = some result) :
    Outside result ∧ ∀ machine', result = .ok machine' →
      ∃ phase', Good phase' machine' ∧
        Move phase (core machine.kernel) phase' (core machine'.kernel) := by
  rcases shape : machine.code with _ | ⟨stmt, rest⟩
  · simp only [Processor.runStmt, shape] at stepped
    cases stepped
  have typed := good.typed
  rw [shape] at typed
  by_cases switch : isSwitch stmt = true
  · cases stmt with
    | swtchToIdle old =>
        simp only [Processor.runStmt, shape] at stepped
        rcases Option.some.inj stepped with rfl
        refine ⟨outside_ok _, ?_⟩
        intro machine' same
        rcases Except.ok.inj same with rfl
        rcases good.toIdle shape with ⟨how, rfl, good'⟩
        exact ⟨_, good', Move.toIdle old how _⟩
    | swtchFromIdle =>
        simp only [Processor.runStmt, shape] at stepped
        rcases Option.some.inj stepped with rfl
        refine ⟨outside_ok _, ?_⟩
        intro machine' same
        rcases Except.ok.inj same with rfl
        rcases good.fromIdle shape with ⟨p, rfl, good'⟩
        exact ⟨_, good', Move.fromIdle p _⟩
    | _ => cases switch
  · have notSwitch : isSwitch stmt = false := by simpa using switch
    rw [runStmt_eq shape notSwitch] at stepped
    rcases Option.some.inj stepped with rfl
    rcases exec_typed good.fits typed notSwitch with ⟨outside, runs⟩
    refine ⟨outside_bind outside fun _ => outside_ok _, ?_⟩
    intro machine' success
    rw [bind_eq_ok] at success
    rcases success with ⟨⟨kernel, more⟩, success, same⟩
    rcases Except.ok.inj same with rfl
    rcases runs kernel more success with ⟨phase', run⟩
    exact ⟨phase', good.move run.fits run.typed run.move run.thread, run.move⟩

/-- A call by the thread on the processor. -/
theorem Good.call {layout : Layout} {op : Op} (idle : machine.code = [])
    (allowed : op.allowed machine.kernel = true) :
    ∃ phase', Good phase' { machine with
        kernel := op.enter machine.kernel
        code := op.code layout machine.kernel } ∧
      Move phase (core machine.kernel) phase'
        (core (op.enter machine.kernel)) := by
  have typed := good.typed
  rw [idle] at typed
  cases typed with
  | done t =>
      obtain rfl : machine.kernel.curproc = t := good.fits.holds.curproc
      have idleproc := good.fits.idleproc
      have stay := Move.stay (.own machine.kernel.curproc)
        (core machine.kernel)
      have start : machine.kernel.nproc < maxProc →
          Fits (.fresh machine.kernel.curproc machine.kernel.nproc)
              machine.kernel ∧
            Move (.own machine.kernel.curproc) (core machine.kernel)
              (.fresh machine.kernel.curproc machine.kernel.nproc)
              (core machine.kernel) := by
        intro room
        have create := @Move.create machine.kernel.curproc
          (core machine.kernel) room
        exact ⟨good.fits.move create rfl rfl nofun, create⟩
      cases op with
      | idlemain =>
          have isIdle : machine.kernel.curproc = 0 := by
            simpa [Op.allowed, idleproc] using allowed
          refine ⟨_, good.move good.fits ?_ stay rfl, stay⟩
          rw [isIdle]
          exact .loop
      | yield =>
          have process : machine.kernel.curproc ≠ 0 := by
            simpa [Op.allowed, idleproc] using allowed
          exact ⟨_, good.move good.fits (typed_yield process) stay rfl, stay⟩
      | sleep nticks =>
          have both : machine.kernel.curproc ≠ 0 ∧ 0 < nticks := by
            simpa [Op.allowed, idleproc] using allowed
          exact ⟨_, good.move good.fits (typed_sleep both.2 both.1) stay
            rfl, stay⟩
      | exit retval =>
          have process : machine.kernel.curproc ≠ 0 := by
            simpa [Op.allowed, idleproc] using allowed
          exact ⟨_, good.move good.fits (typed_exit retval process) stay rfl,
            stay⟩
      | spawn desc =>
          rcases start (by simpa [Op.allowed] using allowed) with
            ⟨fits, create⟩
          exact ⟨_, good.move fits (typed_spawn layout desc) create rfl,
            create⟩
      | spawnuser desc =>
          rcases start (by simpa [Op.allowed] using allowed) with
            ⟨fits, create⟩
          exact ⟨_, good.move fits (typed_spawnuser layout desc) create rfl,
            create⟩
      | fault cause =>
          have process : machine.kernel.curproc ≠ 0 := by
            simpa [Op.allowed, idleproc] using allowed
          exact ⟨_, good.move (good.fits.move stay rfl rfl nofun)
            (.cprintf (typed_exit killed process)) stay rfl, stay⟩

/-- A timer trap between two statements. -/
theorem Good.tick (interruptible : machine.kernel.interruptible = true) :
    phase.masked = false ∧
      Good phase { machine with kernel := timerTrap machine.kernel } := by
  have unmasked : phase.masked = false := by
    by_contra masked
    have off := good.fits.masked (by simpa using masked)
    rw [interruptible] at off
    cases off
  refine ⟨unmasked, ⟨good.fits.idleproc, good.fits.idlectx,
    good.fits.holds.tick unmasked, ?_⟩, good.thread, good.typed, ?_,
    good.idleSaved⟩
  · rw [unmasked]
    exact nofun
  · intro t process alive
    apply good.saved t process
    intro exited
    exact alive (Core.tick_state_of_ne exited (by simp))

/-- Every step of the machine is a step of the abstract scheduler. -/
theorem Good.step {layout : Layout} {event : Event}
    {result : Except Halt Machine}
    (stepped : step layout event machine = some result) :
    Outside result ∧ ∀ machine', result = .ok machine' →
      ∃ phase', Good phase' machine' ∧
        Next phase (core machine.kernel) event phase'
          (core machine'.kernel) := by
  cases event with
  | run =>
      rcases good.runStmt stepped with ⟨outside, runs⟩
      refine ⟨outside, ?_⟩
      intro machine' success
      rcases runs machine' success with ⟨phase', good', move⟩
      exact ⟨phase', good', .move (by simp) move⟩
  | tick =>
      rw [Processor.step] at stepped
      split at stepped
      · rename_i interruptible
        rcases Option.some.inj stepped with rfl
        refine ⟨outside_ok _, ?_⟩
        intro machine' same
        rcases Except.ok.inj same with rfl
        rcases good.tick interruptible with ⟨unmasked, good'⟩
        exact ⟨phase, good', .tick unmasked⟩
      · cases stepped
  | call op =>
      rw [Processor.step] at stepped
      split at stepped
      · rename_i enabled
        rw [Bool.and_eq_true, List.isEmpty_iff] at enabled
        rcases Option.some.inj stepped with rfl
        refine ⟨outside_ok _, ?_⟩
        intro machine' same
        rcases Except.ok.inj same with rfl
        rcases good.call enabled.1 enabled.2 with ⟨phase', good', move⟩
        exact ⟨phase', good', .move (by simp) move⟩
      · cases stepped

end Steps

theorem good_boot (layout : Layout) (index : Byte) (heap : Heap)
    (image : Image) : Good (.own 0) (boot layout index heap image) where
  fits :=
    { idleproc := rfl
      idlectx := rfl
      holds :=
        { curproc := rfl
          running := by
            intro p
            by_cases isIdle : p = 0
            · subst isIdle
              exact iff_of_true rfl (Or.inl rfl)
            · refine iff_of_false ?_ (by simp [Phase.runner, isIdle])
              simp [core, Core.state, boot, procinit, KernelState.zero,
                isIdle]
          unused := by
            intro p beyond
            have isProcess : p ≠ 0 := Nat.ne_of_gt beyond
            simp [core, Core.state, boot, procinit, KernelState.zero,
              isProcess]
          cursor := Nat.one_pos
          bounded := show 1 ≤ maxProc by decide
          extra := trivial }
      masked := nofun }
  thread := rfl
  typed := .done 0
  saved := fun t _ _ => .done t
  idleSaved := fun _ => .done 0

theorem good_of_reachable {layout : Layout} {machine : Machine}
    (reachable : Reachable layout machine) : ∃ phase, Good phase machine := by
  rcases reachable with ⟨index, heap, image, reaches⟩
  apply reaches.invariant _ ⟨_, good_boot layout index heap image⟩
  rintro before event after ⟨phase, good⟩ stepped
  rcases (good.step stepped).2 after rfl with ⟨phase', good', _⟩
  exact ⟨phase', good'⟩

/-! ## The state machine -/

/-- What holds of the process table between any two steps. -/
structure SafeState (kernel : KernelState) : Prop where
  current : ∀ p, p ≠ kernel.idleproc →
    (kernel.procs p).state = .running → p = kernel.curproc
  alone : kernel.curproc = kernel.idleproc →
    ∀ p, p ≠ kernel.idleproc → (kernel.procs p).state ≠ .running
  idleNotRunnable : (kernel.procs kernel.idleproc).state ≠ .runnable

/-- The changes of a process state, with who makes them. -/
inductive StateChange (machine : Machine) (p : Nat) :
    Event → ProcState → ProcState → Prop where
  | reserve {event : Event} (notTick : event ≠ .tick) :
      StateChange machine p event .uninit .reserve
  | ready {event : Event} (notTick : event ≠ .tick) :
      StateChange machine p event .reserve .runnable
  | dispatch {event : Event} (notTick : event ≠ .tick)
      (byIdle : machine.thread = machine.kernel.idleproc)
      (process : p ≠ machine.kernel.idleproc) :
      StateChange machine p event .runnable .running
  | leave {event : Event} {state : ProcState} (notTick : event ≠ .tick)
      (itself : machine.thread = p)
      (process : p ≠ machine.kernel.idleproc)
      (which : state = .runnable ∨ state = .sleeping ∨ state = .exited) :
      StateChange machine p event .running state
  | wake : StateChange machine p .tick .sleeping .runnable

/-- What a step does to the process table. -/
structure SafeStep (machine : Machine) (event : Event) (machine' : Machine) :
    Prop where
  changes : ∀ p,
    (machine'.kernel.procs p).state = (machine.kernel.procs p).state ∨
      StateChange machine p event (machine.kernel.procs p).state
        (machine'.kernel.procs p).state
  exited : ∀ p, (machine.kernel.procs p).state = .exited →
    (machine'.kernel.procs p).state = .exited
  /-- Only `exit` itself, which is still on the processor, sets the value. -/
  retval : ∀ p, (machine.kernel.procs p).state = .exited →
    machine.thread ≠ p →
      (machine'.kernel.procs p).retval = (machine.kernel.procs p).retval ∧
        machine'.thread ≠ p

theorem Good.safeState {phase : Phase} {machine : Machine}
    (good : Good phase machine) : SafeState machine.kernel := by
  have idleproc := good.fits.idleproc
  have running := good.fits.holds.running
  have curproc : machine.kernel.curproc = phase.curproc :=
    good.fits.holds.curproc
  have runnerIsCurrent : phase.runner = 0 ∨ phase.runner = phase.curproc := by
    cases phase <;> first | exact Or.inr rfl | exact Or.inl rfl
  have current : ∀ p, p ≠ machine.kernel.idleproc →
      (machine.kernel.procs p).state = .running →
        p = machine.kernel.curproc := by
    intro p process runs
    rw [idleproc] at process
    rcases (running p).mp runs with isIdle | isRunner
    · exact absurd isIdle process
    · rcases runnerIsCurrent with none | isCurrent
      · exact absurd (isRunner.trans none) process
      · rw [curproc, isRunner, isCurrent]
  refine ⟨current, ?_, ?_⟩
  · intro isIdle p process runs
    exact process ((current p process runs).trans isIdle)
  · have runs : (machine.kernel.procs 0).state = .running :=
      (running 0).mpr (Or.inl rfl)
    rw [idleproc, runs]
    exact nofun

theorem StateChange.of_change {phase : Phase} {machine : Machine}
    {event : Event} {p : Nat} {proc proc' : Proc}
    (good : Good phase machine) (notTick : event ≠ .tick)
    (change : Change phase p proc proc') :
    proc'.state = proc.state ∨
      StateChange machine p event proc.state proc'.state := by
  have idleproc := good.fits.idleproc
  have thread := good.thread
  cases change with
  | reserve state =>
      rw [state]
      exact Or.inr (.reserve notTick)
  | ready _ state =>
      rw [state]
      exact Or.inr (.ready notTick)
  | dispatch taken process state =>
      subst taken
      rw [state]
      exact Or.inr (.dispatch notTick (thread.trans idleproc.symm)
        (idleproc.symm ▸ process))
  | leave how quiet process state =>
      subst quiet
      rw [state]
      refine Or.inr (.leave notTick thread (idleproc.symm ▸ process) ?_)
      cases how with
      | yield => exact Or.inl rfl
      | sleep nticks => exact Or.inr (Or.inl rfl)
      | exit retval => exact Or.inr (Or.inr rfl)
  | store how stored state => exact Or.inl (store_state how proc)

theorem Good.safeStep {phase phase' : Phase} {machine machine' : Machine}
    {event : Event} (good : Good phase machine)
    (good' : Good phase' machine')
    (next : Next phase (core machine.kernel) event phase'
      (core machine'.kernel)) : SafeStep machine event machine' := by
  have holds := good.fits.holds
  generalize after : core machine'.kernel = core' at next
  have procs' : machine'.kernel.procs = core'.procs :=
    congrArg Core.procs after
  cases next with
  | move notTick move =>
      constructor
      · intro p
        rw [procs']
        rcases holds.change move p with same | change
        · exact Or.inl (congrArg Proc.state same)
        · exact StateChange.of_change good notTick change
      · intro p exited
        rw [procs']
        exact exited_of_move holds move exited
      · intro p exited off
        rw [good.thread] at off
        rw [procs', good'.thread]
        rcases holds.exited_alone move exited off with ⟨same, off'⟩
        exact ⟨congrArg Proc.retval same, off'⟩
  | tick unmasked =>
      constructor
      · intro p
        rw [procs']
        rcases (core machine.kernel).tick_state p with same | ⟨before, woken⟩
        · exact Or.inl same
        · right
          have before' : (machine.kernel.procs p).state = .sleeping := before
          have woken' : ((core machine.kernel).tick.procs p).state =
              .runnable := woken
          rw [before', woken']
          exact .wake
      · intro p exited
        rw [procs']
        exact Core.tick_state_of_ne exited (by simp)
      · intro p exited off
        have same := @Core.tick_procs_of_not_sleeping (core machine.kernel) p
          (by simp [show (core machine.kernel).state p = .exited from exited])
        rw [procs', good'.thread, ← good.thread]
        exact ⟨congrArg Proc.retval same, off⟩

/--
In every state that the machine can reach, whatever is called, spawned or
interrupted: at most one process besides the idle process is `RUNNING` and it is
`curproc`, the idle process is never `RUNNABLE`, every step changes process
states only as the diagram of the scheduler allows, no check of the scheduler
fails, and a process that has exited keeps its state and its return value in
every run from then on.
-/
theorem scheduler_state_machine {layout : Layout} {machine : Machine}
    (reachable : Reachable layout machine) :
    SafeState machine.kernel ∧
      (∀ event result, step layout event machine = some result →
        (∀ site text, result = .error (.panic site text) →
          site ∉ schedulerSites) ∧
        ∀ machine', result = .ok machine' →
          SafeStep machine event machine') ∧
      ∀ steps machine', Path (step layout) machine steps machine' →
        ∀ p, (machine.kernel.procs p).state = .exited →
          machine.thread ≠ p →
            (machine'.kernel.procs p).state = .exited ∧
              (machine'.kernel.procs p).retval =
                (machine.kernel.procs p).retval := by
  rcases good_of_reachable reachable with ⟨phase, good⟩
  refine ⟨good.safeState, ?_, ?_⟩
  · intro event result stepped
    rcases good.step stepped with ⟨outside, runs⟩
    refine ⟨fun site text failed => outside _ failed, ?_⟩
    intro machine' success
    rcases runs machine' success with ⟨phase', good', next⟩
    exact good.safeStep good' next
  · intro steps machine' path p exited off
    clear reachable
    induction path generalizing phase with
    | nil machine => exact ⟨exited, rfl⟩
    | cons head rest induction =>
        rcases (good.step head).2 _ rfl with ⟨phase', good', next⟩
        have safe := good.safeStep good' next
        rcases safe.retval p exited off with ⟨same, off'⟩
        rcases induction phase' good' (safe.exited p exited) off' with
          ⟨exited', same'⟩
        exact ⟨exited', same'.trans same⟩

/-- The first process runs. -/
theorem scheduler_state_machine_first_process :
    ∃ machine, Reachable sampleLayout machine ∧
      (machine.kernel.procs 1).state = .running ∧
      SafeState machine.kernel := by
  have ran : (follow (step sampleLayout) sampleEvents sampleBoot).map
      (fun run => (run.2.kernel.procs 1).state) = some .running := rfl
  rcases Option.map_eq_some_iff.mp ran with
    ⟨⟨steps, machine⟩, followed, running⟩
  have reachable := reachable_of_follow followed
  exact ⟨machine, reachable, running,
    (scheduler_state_machine reachable).1⟩

end Rt64.Kernel.Scheduler
