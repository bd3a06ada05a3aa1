import Rt64.Kernel.IdleLoop

/-!
# How long interrupts stay off

A process that gives up the processor turns interrupts off, and the idle process
turns them on again.  In between lies a fixed number of statements, across the
switch: the ones of the process up to the switch, and the ones of the idle
process from behind its own switch to the `sti` of the loop.  A fault in user
mode starts two statements earlier.

Two of the statements may be messages, the one of `exit` and before it the one of
`trap`.  They take far longer than the others and are counted for themselves.
-/

namespace Rt64.Kernel.InterruptLatency

open Rt64.Lib.Transition
open Rt64.Include.Defs
open Rt64.Kernel.Process
open Rt64.Kernel.Processor
open Rt64.Kernel.Rounds
open Rt64.Kernel.Scheduler
open Rt64.Kernel.IdleLoop

/-! ## Statements up to `sti` -/

/-- Statements that are over at once and leave interrupts off. -/
inductive Quick : Stmt → Prop where
  | check {site : Site} {text : String} {condition : KernelState → Bool}
      (inScheduler : site ∈ schedulerSites) :
      Quick (.check site text condition)
  | lcr3 : Quick (.plain lcr3)
  | cli : Quick .cli
  | setCurState (state : ProcState) : Quick (.setCurState state)
  | setCurRetval (retval : BitVec 64) : Quick (.setCurRetval retval)
  | setCurSleeprem (nticks : Int) : Quick (.setCurSleeprem nticks)
  | setCurprocIdle : Quick .setCurprocIdle

/-- After `n` quick statements and `k` messages interrupts are on; after the
switch these are statements of the idle process. -/
inductive Closing : Nat → Nat → List Stmt → Prop where
  | sti : Closing 1 0 Spot.sti.code
  | loop : Closing 2 0 Spot.loop.code
  | toIdle (old : Nat) (rest : List Stmt) :
      Closing 4 0 (.swtchToIdle old :: rest)
  | next {n k : Nat} {stmt : Stmt} {rest : List Stmt} (quick : Quick stmt)
      (after : Closing n k rest) : Closing (n + 1) k (stmt :: rest)
  | message {n k : Nat} {format : String} {args : List Arg} {rest : List Stmt}
      (after : Closing n k rest) : Closing n (k + 1) (.cprintf format args :: rest)

def isMessage : Stmt → Bool
  | .cprintf _ _ => true
  | _ => false

/-- No message comes before a `cli`. -/
def Silent : List Stmt → Prop
  | [] => True
  | stmt :: rest => stmt = .cli ∨ isMessage stmt = false ∧ Silent rest

/-- The statements behind which interrupts are on: the switches, and those that
the loop of the idle process unfolds. -/
def opens : Stmt → Bool
  | .swtchToIdle _ | .swtchFromIdle | .probe | .choose _ | .loop => true
  | _ => false

/-- After every `cli`, at most ten statements and a message follow up to the
`sti`; where interrupts are on, no message does. -/
def Guarded : List Stmt → Prop
  | [] => True
  | stmt :: rest =>
      (stmt = .cli → ∃ n ≤ 10, ∃ k ≤ 1, Closing n k rest) ∧
        (opens stmt = true → Silent rest) ∧ Guarded rest

theorem closing_back : Closing 3 0 Spot.back.code :=
  .next (.check (by decide)) .loop

theorem closing_sched (t : Nat) (rest : List Stmt) :
    Closing 8 0 (sched t ++ rest) :=
  .next (.check (by decide)) (.next (.check (by decide))
    (.next .setCurprocIdle (.next .lcr3 (.toIdle t _))))

theorem silent_of_creates {code : List Stmt}
    (isCreate : ∀ stmt ∈ code, creates stmt = true) : Silent code := by
  induction code with
  | nil => trivial
  | cons stmt rest induction =>
      have first := isCreate stmt List.mem_cons_self
      refine Or.inr ⟨?_, induction fun stmt' member =>
        isCreate stmt' (List.mem_cons_of_mem _ member)⟩
      cases stmt <;> first | rfl | cases first

theorem guarded_of_creates {code : List Stmt}
    (isCreate : ∀ stmt ∈ code, creates stmt = true) : Guarded code := by
  induction code with
  | nil => trivial
  | cons stmt rest induction =>
      have later : ∀ stmt' ∈ rest, creates stmt' = true :=
        fun stmt' member => isCreate stmt' (List.mem_cons_of_mem _ member)
      refine ⟨?_, fun _ => silent_of_creates later, induction later⟩
      rintro rfl
      cases isCreate .cli List.mem_cons_self

theorem guarded_sched (t : Nat) {rest : List Stmt} (silent : Silent rest)
    (guarded : Guarded rest) : Guarded (sched t ++ rest) := by
  simpa [sched, Guarded, Silent, opens, isMessage] using ⟨silent, guarded⟩

theorem guarded_yield (t : Nat) : Guarded (yield t) := by
  have closing := closing_sched t []
  have guarded := @guarded_sched t [] trivial trivial
  rw [List.append_nil] at closing guarded
  refine ⟨by simp, nofun, fun _ => ⟨9, by decide, 0, by decide, ?_⟩, nofun,
    by simp, nofun, guarded⟩
  exact .next (.setCurState _) closing

theorem closing_exit (retval : BitVec 64) (t : Nat) :
    Closing 12 1 (exit retval t) :=
  .next (.check (by decide)) (.next .cli (.next (.setCurState _)
    (.next (.setCurRetval _) (.message (closing_sched t _)))))

theorem closing_kill (cause : Fault) (t : Nat) : Closing 12 2 (kill cause t) :=
  .message (closing_exit killed t)

theorem guarded_exit (retval : BitVec 64) (t : Nat) :
    Guarded (exit retval t) := by
  have closing : Closing 10 1 ((exit retval t).drop 2) :=
    .next (.setCurState _)
      (.next (.setCurRetval _) (.message (closing_sched t _)))
  refine ⟨by simp, nofun, fun _ => ⟨10, le_rfl, 1, le_rfl, closing⟩, nofun,
    by simp, nofun, by simp, nofun, by simp, nofun, ?_⟩
  exact guarded_sched t (Or.inr ⟨rfl, trivial⟩) ⟨by simp, nofun, trivial⟩

theorem guarded_kill (cause : Fault) (t : Nat) : Guarded (kill cause t) :=
  ⟨by simp, nofun, guarded_exit killed t⟩

theorem guarded_sleep (nticks : Int) (t : Nat) : Guarded (sleep nticks t) := by
  unfold sleep
  split
  · exact ⟨by simp, nofun, trivial⟩
  · have closing := closing_sched t []
    have guarded := @guarded_sched t [] trivial trivial
    rw [List.append_nil] at closing guarded
    refine ⟨by simp, nofun, by simp, nofun,
      fun _ => ⟨10, le_rfl, 0, by decide, ?_⟩, nofun, by simp, nofun, by simp,
      nofun, guarded⟩
    exact .next (.setCurState _) (.next (.setCurSleeprem _) closing)

theorem guarded_op (layout : Layout) (kernel : KernelState) (op : Op) :
    Guarded (op.code layout kernel) := by
  cases op with
  | idlemain => exact ⟨by simp, fun _ => trivial, trivial⟩
  | yield => exact guarded_yield _
  | sleep nticks => exact guarded_sleep nticks _
  | exit retval => exact guarded_exit retval _
  | spawn desc => exact guarded_of_creates (creates_spawn layout desc _)
  | spawnuser desc => exact guarded_of_creates (creates_spawnuser layout desc _)
  | fault cause => exact guarded_kill cause _

/-- A function that is called with interrupts on prints nothing before it turns
them off. -/
theorem silent_op (layout : Layout) (kernel : KernelState) {op : Op}
    (notFault : ∀ cause, op ≠ .fault cause) :
    Silent (op.code layout kernel) := by
  cases op with
  | idlemain => exact Or.inr ⟨rfl, trivial⟩
  | yield => exact Or.inr ⟨rfl, Or.inl rfl⟩
  | sleep nticks =>
      simp only [Op.code, sleep]
      split
      · exact Or.inr ⟨rfl, trivial⟩
      · exact Or.inr ⟨rfl, Or.inr ⟨rfl, Or.inl rfl⟩⟩
  | exit retval => exact Or.inr ⟨rfl, Or.inl rfl⟩
  | spawn desc => exact silent_of_creates (creates_spawn layout desc _)
  | spawnuser desc => exact silent_of_creates (creates_spawnuser layout desc _)
  | fault cause => exact absurd rfl (notFault cause)

/-! ## Running a statement -/

section Run

variable {layout : Layout} {event : Event} {phase : Phase}
variable {machine machine' : Machine} {stmt : Stmt} {rest : List Stmt}

theorem run_of_exec {kernel : KernelState} {more : List Stmt}
    (code : machine.code = stmt :: rest) (notSwitch : isSwitch stmt = false)
    (executed : stmt.exec machine.kernel = .ok (kernel, more)) :
    step layout .run machine =
      some (.ok { machine with kernel, code := more ++ rest }) := by
  rw [step, runStmt_eq code notSwitch, executed]
  rfl

/-- The thread on the processor is about to print a message. -/
def atMessage (machine : Machine) : Bool :=
  match machine.code with
  | .cprintf _ _ :: _ => true
  | _ => false

/-- With `n` statements and `k` messages to go, a step turns interrupts on, or it
is one of the statements or one of the messages. -/
inductive Nearer : Nat → Nat → Machine → Machine → Prop where
  | last {before after : Machine} (quick : atMessage before = false)
      (on : after.kernel.interruptible = true) (silent : Silent after.code) :
      Nearer 1 0 before after
  | statement {n k : Nat} {before after : Machine}
      (quick : atMessage before = false)
      (off : after.kernel.interruptible = false)
      (closing : Closing n k after.code) : Nearer (n + 1) k before after
  | message {n k : Nat} {before after : Machine}
      (message : atMessage before = true)
      (off : after.kernel.interruptible = false)
      (closing : Closing n k after.code) : Nearer n (k + 1) before after

/-- A quick statement of the scheduler does not fail. -/
theorem exec_of_quick (good : Good phase machine)
    (code : machine.code = stmt :: rest) (quick : Quick stmt)
    (off : machine.kernel.interruptible = false) :
    isSwitch stmt = false ∧
      ∃ kernel, stmt.exec machine.kernel = .ok (kernel, []) ∧
        kernel.interruptible = false := by
  cases quick with
  | check inScheduler =>
      have typed := good.typed
      rw [code] at typed
      cases typed with
      | check passes _ =>
          have holds := passes inScheduler _ good.fits
          refine ⟨rfl, machine.kernel, ?_, off⟩
          rw [Stmt.exec, assert_of_holds _ _ holds]
          rfl
  | cli => exact ⟨rfl, _, rfl, rfl⟩
  | _ => exact ⟨rfl, _, rfl, off⟩

theorem not_atMessage_of_quick (code : machine.code = stmt :: rest)
    (quick : Quick stmt) : atMessage machine = false := by
  rw [atMessage, code]
  cases quick <;> rfl

theorem not_atMessage_of_silent (silent : Silent machine.code) :
    atMessage machine = false := by
  rw [atMessage]
  split
  · rename_i code
    rw [code] at silent
    rcases silent with isCli | ⟨notMessage, _⟩
    · cases isCli
    · cases notMessage
  · rfl

/-- One statement or message nearer to the `sti`. -/
theorem run_of_closing {n k : Nat} (good : Good phase machine)
    (looping : Looping machine) (off : machine.kernel.interruptible = false)
    (closing : Closing n k machine.code) :
    ∃ machine', step layout .run machine = some (.ok machine') ∧
      Nearer n k machine machine' := by
  generalize shape : machine.code = code at closing
  cases closing with
  | sti =>
      refine ⟨_, run_of_exec shape rfl rfl, .last ?_ rfl (Or.inr ⟨rfl, trivial⟩)⟩
      rw [atMessage, shape]
      rfl
  | loop =>
      refine ⟨_, run_of_exec shape rfl rfl, .statement ?_ off .sti⟩
      rw [atMessage, shape]
      rfl
  | toIdle old rest =>
      rcases good.toIdle shape with ⟨how, rfl, _⟩
      have process : old ≠ 0 := good.fits.holds.extra.1
      have back := looping.back (by rw [good.thread]; exact process)
      refine ⟨{ machine with
          saved := Function.update machine.saved old rest
          thread := 0
          code := machine.saved 0 }, ?_, .statement ?_ off ?_⟩
      · simp only [step, runStmt, shape, good.fits.idlectx,
          Function.update_of_ne process.symm]
      · rw [atMessage, shape]
      · dsimp only
        rw [back]
        exact closing_back
  | next quick after =>
      rcases exec_of_quick good shape quick off with
        ⟨notSwitch, kernel, executed, off'⟩
      exact ⟨_, run_of_exec shape notSwitch executed,
        .statement (not_atMessage_of_quick shape quick) off' after⟩
  | message after =>
      refine ⟨_, run_of_exec shape rfl rfl, .message ?_ off after⟩
      rw [atMessage, shape]

theorem closing_pos {n k : Nat} {code : List Stmt}
    (closing : Closing n k code) : 0 < n := by
  induction closing with
  | message _ positive => exact positive
  | _ => exact Nat.succ_pos _

/-- With interrupts off only the next statement can come. -/
theorem event_of_closing {n k : Nat} {result : Except Halt Machine}
    (off : machine.kernel.interruptible = false)
    (closing : Closing n k machine.code)
    (stepped : step layout event machine = some result) : event = .run := by
  cases event with
  | run => rfl
  | tick =>
      rw [step, off] at stepped
      cases stepped
  | call op =>
      rw [step] at stepped
      split at stepped
      · rename_i enabled
        rw [Bool.and_eq_true, List.isEmpty_iff] at enabled
        rw [enabled.1] at closing
        cases closing
      · cases stepped

/-- Only `cli` turns interrupts off. -/
theorem on_of_exec {kernel kernel' : KernelState} {more : List Stmt}
    (other : stmt ≠ .cli) (on : kernel.interruptible = true)
    (executed : stmt.exec kernel = .ok (kernel', more)) :
    kernel'.interruptible = true := by
  cases stmt with
  | cli => exact absurd rfl other
  | check =>
      rcases same_of_check executed with ⟨rfl, _⟩
      exact on
  | plain =>
      rcases image_of_plain executed with ⟨image, rfl, _⟩
      exact on
  | probe =>
      rw [Stmt.exec] at executed
      split at executed
      · rcases Prod.mk.inj (Except.ok.inj executed) with ⟨rfl, _⟩
        exact on
      · rcases Prod.mk.inj (Except.ok.inj executed) with ⟨rfl, _⟩
        exact on
  | choose found =>
      cases found with
      | some p =>
          rcases Prod.mk.inj (Except.ok.inj executed) with ⟨rfl, _⟩
          exact on
      | none =>
          rcases Prod.mk.inj (Except.ok.inj executed) with ⟨rfl, _⟩
          exact on
  | sti =>
      rcases Prod.mk.inj (Except.ok.inj executed) with ⟨rfl, _⟩
      rfl
  | _ =>
      rcases Prod.mk.inj (Except.ok.inj executed) with ⟨rfl, _⟩
      exact on

/-- Only `idlemain` unfolds to more statements, and has no `cli`. -/
theorem guarded_of_exec {kernel kernel' : KernelState} {more : List Stmt}
    (executed : stmt.exec kernel = .ok (kernel', more))
    (guarded : Guarded (stmt :: rest)) : Guarded (more ++ rest) := by
  rcases guarded with ⟨_, silent, guarded⟩
  cases stmt with
  | check =>
      rcases same_of_check executed with ⟨_, rfl⟩
      exact guarded
  | plain =>
      rcases image_of_plain executed with ⟨_, _, rfl⟩
      exact guarded
  | probe =>
      rw [Stmt.exec] at executed
      split at executed
      · rcases Prod.mk.inj (Except.ok.inj executed) with ⟨_, rfl⟩
        exact ⟨by simp, by simp [opens], by simp, silent, guarded⟩
      · rcases Prod.mk.inj (Except.ok.inj executed) with ⟨_, rfl⟩
        exact ⟨by simp, by simp [opens], by simp, silent, guarded⟩
  | choose found =>
      cases found with
      | some p =>
          rcases Prod.mk.inj (Except.ok.inj executed) with ⟨_, rfl⟩
          simpa [dispatch, setTaskKstack, Guarded, Silent, opens, isMessage]
            using ⟨silent rfl, guarded⟩
      | none =>
          rcases Prod.mk.inj (Except.ok.inj executed) with ⟨_, rfl⟩
          exact ⟨by simp, by simp [opens], by simp, silent, guarded⟩
  | loop =>
      rcases Prod.mk.inj (Except.ok.inj executed) with ⟨_, rfl⟩
      exact ⟨by simp, by simp [opens], by simp, silent, guarded⟩
  | _ =>
      rcases Prod.mk.inj (Except.ok.inj executed) with ⟨_, rfl⟩
      exact guarded

/-- Where interrupts stay on, what is left is still silent. -/
theorem silent_of_exec {kernel kernel' : KernelState} {more : List Stmt}
    (other : stmt ≠ .cli) (executed : stmt.exec kernel = .ok (kernel', more))
    (silent : Silent (stmt :: rest)) : Silent (more ++ rest) := by
  have silent' := (silent.resolve_left other).2
  cases stmt with
  | check =>
      rcases same_of_check executed with ⟨_, rfl⟩
      exact silent'
  | plain =>
      rcases image_of_plain executed with ⟨_, _, rfl⟩
      exact silent'
  | probe =>
      rw [Stmt.exec] at executed
      split at executed
      · rcases Prod.mk.inj (Except.ok.inj executed) with ⟨_, rfl⟩
        exact Or.inr ⟨rfl, Or.inr ⟨rfl, silent'⟩⟩
      · rcases Prod.mk.inj (Except.ok.inj executed) with ⟨_, rfl⟩
        exact Or.inr ⟨rfl, Or.inr ⟨rfl, silent'⟩⟩
  | choose found =>
      cases found with
      | some p =>
          rcases Prod.mk.inj (Except.ok.inj executed) with ⟨_, rfl⟩
          simpa [dispatch, setTaskKstack, Silent, isMessage] using silent'
      | none =>
          rcases Prod.mk.inj (Except.ok.inj executed) with ⟨_, rfl⟩
          exact Or.inr ⟨rfl, Or.inr ⟨rfl, silent'⟩⟩
  | loop =>
      rcases Prod.mk.inj (Except.ok.inj executed) with ⟨_, rfl⟩
      exact Or.inr ⟨rfl, Or.inr ⟨rfl, silent'⟩⟩
  | _ =>
      rcases Prod.mk.inj (Except.ok.inj executed) with ⟨_, rfl⟩
      exact silent'

/-- The statements that are put aside keep what holds of all of them. -/
theorem saved_update {saved : Nat → List Stmt} {t : Nat} {Kept : List Stmt → Prop}
    (keptRest : Kept rest) (kept : ∀ t, Kept (saved t)) (t' : Nat) :
    Kept (Function.update saved t rest t') := by
  by_cases same : t' = t
  · rw [same, Function.update_self]
    exact keptRest
  · rw [Function.update_of_ne same]
    exact kept t'

end Run

/-! ## Runs -/

/-- The idle process is in its loop, and no thread keeps interrupts off for
long. -/
structure Settled (machine : Machine) : Prop where
  looping : Looping machine
  off : machine.kernel.interruptible = false →
    ∃ n ≤ 12, ∃ k ≤ 2, Closing n k machine.code
  on : machine.kernel.interruptible = true → Silent machine.code
  code : Guarded machine.code
  saved : ∀ t, Silent (machine.saved t) ∧ Guarded (machine.saved t)

section Steps

variable {layout : Layout} {event : Event} {phase : Phase}
variable {machine machine' : Machine}

/-- What a statement leaves is settled if interrupts were off before it. -/
theorem Settled.run_off (settled : Settled machine) (good : Good phase machine)
    (off : machine.kernel.interruptible = false)
    (ran : step layout .run machine = some (.ok machine')) :
    (machine'.kernel.interruptible = false →
        ∃ n ≤ 12, ∃ k ≤ 2, Closing n k machine'.code) ∧
      (machine'.kernel.interruptible = true → Silent machine'.code) := by
  rcases settled.off off with ⟨n, fewer, k, few, closing⟩
  rcases @run_of_closing layout _ _ _ _ good settled.looping off closing with
    ⟨after, ran', nearer⟩
  rw [ran] at ran'
  rcases Except.ok.inj (Option.some.inj ran') with rfl
  cases nearer with
  | last _ on silent =>
      refine ⟨fun off' => ?_, fun _ => silent⟩
      rw [on] at off'
      cases off'
  | statement _ off' closing' =>
      refine ⟨fun _ => ⟨_, by omega, _, few, closing'⟩, fun on => ?_⟩
      rw [off'] at on
      cases on
  | message _ off' closing' =>
      refine ⟨fun _ => ⟨_, fewer, _, by omega, closing'⟩, fun on => ?_⟩
      rw [off'] at on
      cases on

/-- What a statement other than a switch leaves if interrupts were on. -/
theorem Settled.exec_on {stmt : Stmt} {rest more : List Stmt}
    {kernel : KernelState} (settled : Settled machine)
    (shape : machine.code = stmt :: rest)
    (on : machine.kernel.interruptible = true)
    (executed : stmt.exec machine.kernel = .ok (kernel, more)) :
    (kernel.interruptible = false →
        ∃ n ≤ 12, ∃ k ≤ 2, Closing n k (more ++ rest)) ∧
      (kernel.interruptible = true → Silent (more ++ rest)) := by
  have code := settled.code
  have silent := settled.on on
  rw [shape] at code silent
  by_cases isCli : stmt = .cli
  · subst isCli
    rcases Prod.mk.inj (Except.ok.inj executed) with ⟨rfl, rfl⟩
    rcases code.1 rfl with ⟨n, fewer, k, few, closing⟩
    exact ⟨fun _ => ⟨n, by omega, k, by omega, closing⟩, nofun⟩
  · refine ⟨fun off => ?_, fun _ => silent_of_exec isCli executed silent⟩
    have on' := on_of_exec isCli on executed
    rw [off] at on'
    cases on'

theorem Settled.run (settled : Settled machine) (good : Good phase machine)
    (ran : step layout .run machine = some (.ok machine')) :
    Settled machine' := by
  have looping := settled.looping.step good ran
  have code := settled.code
  rcases code_of_run ran with ⟨stmt, rest, shape⟩
  rw [shape] at code
  cases switch : isSwitch stmt with
  | false =>
      rcases exec_of_run shape switch ran with ⟨kernel, more, executed, rfl⟩
      have flag : (kernel.interruptible = false →
            ∃ n ≤ 12, ∃ k ≤ 2, Closing n k (more ++ rest)) ∧
          (kernel.interruptible = true → Silent (more ++ rest)) := by
        cases before : machine.kernel.interruptible with
        | true => exact settled.exec_on shape before executed
        | false => exact settled.run_off good before ran
      exact ⟨looping, flag.1, flag.2, guarded_of_exec executed code,
        settled.saved⟩
  | true =>
      have silent : Silent rest := code.2.1 (by
        cases stmt <;> first | rfl | cases switch)
      have saved (t : Nat) := @saved_update rest _ t
        (fun code => Silent code ∧ Guarded code) ⟨silent, code.2.2⟩ settled.saved
      -- interrupts stay as they are
      have flag (same : machine'.kernel = machine.kernel)
          (still : Silent machine'.code) :
          (machine'.kernel.interruptible = false →
              ∃ n ≤ 12, ∃ k ≤ 2, Closing n k machine'.code) ∧
            (machine'.kernel.interruptible = true → Silent machine'.code) := by
        cases before : machine.kernel.interruptible with
        | true =>
            refine ⟨fun off => ?_, fun _ => still⟩
            rw [same, before] at off
            cases off
        | false => exact settled.run_off good before ran
      cases stmt with
      | swtchToIdle old =>
          simp only [step, runStmt, shape] at ran
          rcases Except.ok.inj (Option.some.inj ran) with rfl
          have after := flag rfl (saved _ _).1
          exact ⟨looping, after.1, after.2, (saved _ _).2, saved _⟩
      | swtchFromIdle =>
          simp only [step, runStmt, shape] at ran
          rcases Except.ok.inj (Option.some.inj ran) with rfl
          have after := flag rfl (saved _ _).1
          exact ⟨looping, after.1, after.2, (saved _ _).2, saved _⟩
      | _ => cases switch

theorem Settled.step (settled : Settled machine) (good : Good phase machine)
    (stepped : step layout event machine = some (.ok machine')) :
    Settled machine' := by
  have looping := settled.looping.step good stepped
  cases event with
  | run => exact settled.run good stepped
  | tick =>
      rcases step_tick stepped with ⟨on, rfl⟩
      refine ⟨looping, ?_, fun _ => settled.on on, settled.code, settled.saved⟩
      intro off
      have off' : machine.kernel.interruptible = false := off
      rw [on] at off'
      cases off'
  | call op =>
      rcases step_call stepped with ⟨resting, _, rfl⟩
      by_cases isFault : ∃ cause, op = .fault cause
      · rcases isFault with ⟨cause, rfl⟩
        exact ⟨looping, fun _ => ⟨12, le_rfl, 2, le_rfl, closing_kill cause _⟩,
          nofun, guarded_op layout machine.kernel (.fault cause), settled.saved⟩
      · have silent := @silent_op layout machine.kernel op
          fun cause same => isFault ⟨cause, same⟩
        refine ⟨looping, fun off => ?_, fun _ => silent, guarded_op layout _ op,
          settled.saved⟩
        have same : op.enter machine.kernel = machine.kernel := by
          cases op with
          | fault cause => exact absurd ⟨cause, rfl⟩ isFault
          | _ => rfl
        dsimp only at off
        rw [same] at off
        rcases settled.off off with ⟨n, _, k, _, closing⟩
        rw [resting] at closing
        cases closing

theorem settled_of_loop (code : machine.code = Spot.loop.code)
    (thread : machine.thread = 0) (saved : ∀ t, machine.saved t = []) :
    Settled machine where
  looping := ⟨fun _ => ⟨.loop, code, by simp⟩,
    fun process => absurd thread process⟩
  off := fun _ => ⟨2, by decide, 0, by decide, code ▸ .loop⟩
  on := fun _ => code ▸ Or.inr ⟨rfl, trivial⟩
  code := code ▸ ⟨by simp, fun _ => trivial, trivial⟩
  saved := fun t => by
    rw [saved t]
    exact ⟨trivial, trivial⟩

/-- In every run the boot thread either has not entered `idlemain` or has
settled there. -/
theorem booting_or_settled (reachable : Reachable layout machine) :
    ∃ phase, Good phase machine ∧ (Booting machine ∨ Settled machine) := by
  rcases reachable with ⟨index, heap, image, reaches⟩
  have booting : Booting (boot layout index heap image) :=
    ⟨rfl, fun _ => rfl, rfl, fun _ member => nomatch member⟩
  apply reaches.invariant _
    ⟨_, good_boot layout index heap image, Or.inl booting⟩
  rintro before event after ⟨phase, good, state⟩ stepped
  rcases (good.step stepped).2 after rfl with ⟨phase', good', _⟩
  refine ⟨phase', good', ?_⟩
  rcases state with booting | settled
  · rcases booting.step good stepped with
      booting' | ⟨code, thread, saved, _⟩
    · exact Or.inl booting'
    · exact Or.inr (settled_of_loop code thread saved)
  · exact Or.inr (settled.step good stepped)

theorem settled_of_on (reachable : Reachable layout machine)
    (on : machine.kernel.interruptible = true) :
    ∃ phase, Good phase machine ∧ Settled machine := by
  rcases booting_or_settled reachable with ⟨phase, good, booting | settled⟩
  · rw [booting.off] at on
    cases on
  · exact ⟨phase, good, settled⟩

theorem Settled.path {steps : List (Event × Machine)} (settled : Settled machine)
    (good : Good phase machine)
    (path : Path (Processor.step layout) machine steps machine') :
    ∃ phase', Good phase' machine' ∧ Settled machine' := by
  apply path.invariant _ ⟨phase, good, settled⟩
  rintro before event after ⟨phase, good, settled⟩ stepped
  rcases (good.step stepped).2 after rfl with ⟨phase', good', _⟩
  exact ⟨phase', good', settled.step good stepped⟩

/-- How many messages a run prints. -/
def messages (first : Machine) (steps : List (Event × Machine)) : Nat :=
  count (fun before _ _ => atMessage before = true) first steps

/-- From a state with interrupts off there is one run to the `sti`. -/
theorem returns_of_closing {size n k : Nat} (good : Good phase machine)
    (looping : Looping machine) (off : machine.kernel.interruptible = false)
    (closing : Closing n k machine.code) (total : n + k = size) :
    ∃ steps last, Path (Processor.step layout) machine steps last ∧
      steps.length = size ∧ messages machine steps = k ∧
      last.kernel.interruptible = true ∧
      ∀ more last', Path (Processor.step layout) machine more last' →
        more <+: steps ∨ steps <+: more := by
  -- by induction on the number of statements and messages
  induction size generalizing machine phase n k with
  | zero =>
      have positive := closing_pos closing
      omega
  | succ size induction =>
      rcases @run_of_closing layout _ _ _ _ good looping off closing with
        ⟨machine', ran, nearer⟩
      -- the first step of any other run is the same
      have first {event : Event} {second : Machine}
          (stepped : Processor.step layout event machine =
            some (.ok second)) : event = .run ∧ second = machine' := by
        obtain rfl := event_of_closing off closing stepped
        rw [ran] at stepped
        exact ⟨rfl, (Except.ok.inj (Option.some.inj stepped)).symm⟩
      have further {m j : Nat} (off' : machine'.kernel.interruptible = false)
          (closing' : Closing m j machine'.code) (rest : m + j = size) :
          ∃ steps last, Path (Processor.step layout) machine steps last ∧
            steps.length = size + 1 ∧
            messages machine steps = (if atMessage machine = true then 1 else 0) + j ∧
            last.kernel.interruptible = true ∧
            ∀ more last', Path (Processor.step layout) machine more last' →
              more <+: steps ∨ steps <+: more := by
        rcases (good.step ran).2 machine' rfl with ⟨phase', good', _⟩
        rcases induction good' (looping.step good ran) off' closing' rest with
          ⟨steps, last, path, length, printed, on, unique⟩
        refine ⟨(.run, machine') :: steps, last, .cons ran path,
          congrArg Nat.succ length, ?_, on, ?_⟩
        · rw [messages, count, ← printed]
          rfl
        · intro more last' path'
          cases path' with
          | nil => exact Or.inl (List.nil_prefix)
          | cons head rest =>
              rcases first head with ⟨rfl, rfl⟩
              exact (unique _ _ rest).imp (List.prefix_cons_inj _).mpr
                (List.prefix_cons_inj _).mpr
      cases nearer with
      | last quick on =>
          obtain rfl : size = 0 := by omega
          refine ⟨[(.run, machine')], machine', .single ran, rfl, ?_, on, ?_⟩
          · simp [messages, count, quick]
          · intro more last' path
            cases path with
            | nil => exact Or.inl (List.nil_prefix)
            | cons head rest =>
                rcases first head with ⟨rfl, rfl⟩
                exact Or.inr (List.prefix_append [_] _)
      | statement quick off' closing' =>
          have rest := further off' closing' (by omega)
          rwa [quick, if_neg Bool.false_ne_true, Nat.zero_add] at rest
      | message message off' closing' =>
          have rest := further off' closing' (by omega)
          rwa [message, if_pos rfl, Nat.add_comm 1] at rest

end Steps

end Rt64.Kernel.InterruptLatency
