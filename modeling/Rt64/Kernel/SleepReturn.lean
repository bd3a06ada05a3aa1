import Rt64.Kernel.SleepAccounting
import Rt64.Kernel.Contracts

/-!
# From a call of sleep to its return

A process that calls `sleep` is on its way to the store of its count, then it
sleeps, and then it has been woken and waits for the processor, or is back on it.
The timer traps that come while it sleeps are those it has asked for: when the
call returns they are exactly as many.  Traps that come before or after are not
counted, and nothing bounds them.
-/

namespace Rt64.Kernel.SleepReturn

open Rt64.Lib.Transition
open Rt64.Include.Defs
open Rt64.Kernel.Process
open Rt64.Kernel.Processor
open Rt64.Kernel.Rounds
open Rt64.Kernel.Scheduler
open Rt64.Kernel.SleepAccounting
open Rt64.Kernel.Contracts

def isCall : Event → Bool
  | .call _ => true
  | _ => false

/-! ## What a thread goes on with -/

/-- The statements that a thread has left, on the processor or put aside. -/
def pending (t : Nat) (machine : Machine) : List Stmt :=
  if machine.thread = t then machine.code else machine.saved t

theorem pending_of_thread {t : Nat} {machine : Machine}
    (thread : machine.thread = t) : pending t machine = machine.code :=
  if_pos thread

theorem pending_of_ne {t : Nat} {machine : Machine}
    (thread : machine.thread ≠ t) : pending t machine = machine.saved t :=
  if_neg thread

section Steps

variable {layout : Layout} {phase : Phase} {machine machine' : Machine}
variable {event : Event} {t : Nat}

/-- A timer trap is not part of what a thread does. -/
theorem pending_tick
    (ticked : step layout .tick machine = some (.ok machine')) (t : Nat) :
    pending t machine' = pending t machine := by
  rcases step_tick ticked with ⟨_, rfl⟩
  rfl

/-- A thread that is not on the processor keeps what it has left. -/
theorem pending_of_other (good : Good phase machine)
    (other : machine.thread ≠ t)
    (stepped : step layout event machine = some (.ok machine')) :
    pending t machine' = pending t machine := by
  rw [pending_of_ne other]
  cases event with
  | tick =>
      rw [pending_tick stepped, pending_of_ne other]
  | call op =>
      rcases step_call stepped with ⟨_, _, rfl⟩
      exact pending_of_ne other
  | run =>
      rcases code_of_run stepped with ⟨stmt, rest, code⟩
      by_cases switch : isSwitch stmt = true
      · cases stmt with
        | swtchToIdle old =>
            rcases good.toIdle code with ⟨how, rfl, _⟩
            have notOld : t ≠ old := fun same =>
              other (good.thread.trans same.symm)
            simp only [Processor.step, runStmt, code] at stepped
            rcases Except.ok.inj (Option.some.inj stepped) with rfl
            unfold pending
            dsimp only
            split
            · rename_i idle
              rw [idle, Function.update_of_ne notOld]
            · exact Function.update_of_ne notOld _ _
        | swtchFromIdle =>
            rcases good.fromIdle code with ⟨p, rfl, _⟩
            have idle : machine.thread = 0 := good.thread
            have notIdle : t ≠ machine.kernel.idlectx := by
              rw [good.fits.idlectx]
              exact fun same => other (idle.trans same.symm)
            simp only [Processor.step, runStmt, code] at stepped
            rcases Except.ok.inj (Option.some.inj stepped) with rfl
            unfold pending
            dsimp only
            split
            · rename_i current
              rw [current, Function.update_of_ne notIdle]
            · exact Function.update_of_ne notIdle _ _
        | _ => cases switch
      · have notSwitch : isSwitch stmt = false := by simpa using switch
        rcases step_of_code code notSwitch stepped with
          ⟨_, _, rfl⟩ | ⟨_, _, _, _, rfl⟩
        · exact pending_of_ne other
        · exact pending_of_ne other

/-- A statement of the thread on the processor that neither switches nor waits. -/
theorem pending_run {stmt : Stmt} {rest : List Stmt}
    (thread : machine.thread = t) (code : machine.code = stmt :: rest)
    (notSwitch : isSwitch stmt = false) (notWait : waits stmt = false)
    (ran : step layout .run machine = some (.ok machine')) :
    machine'.thread = t ∧ pending t machine' = rest := by
  rcases step_of_code code notSwitch ran with
    ⟨impossible, _⟩ | ⟨_, kernel, more, success, rfl⟩
  · cases impossible
  · have nothing := more_of_exec notWait success
    subst nothing
    exact ⟨thread, pending_of_thread thread⟩

/-- No statement counts a tick. -/
theorem ticks_of_exec {stmt : Stmt} {kernel kernel' : KernelState}
    {more : List Stmt} (ran : stmt.exec kernel = .ok (kernel', more)) :
    kernel'.ticks = kernel.ticks := by
  cases stmt with
  | check =>
      rw [Stmt.exec, assert_bind_eq_ok] at ran
      rcases Prod.mk.inj (Except.ok.inj ran.2) with ⟨rfl, _⟩
      rfl
  | plain =>
      rw [Stmt.exec, bind_eq_ok] at ran
      rcases ran with ⟨image, _, same⟩
      rcases Prod.mk.inj (Except.ok.inj same) with ⟨rfl, _⟩
      rfl
  | probe =>
      rw [Stmt.exec] at ran
      split at ran
      · rcases Prod.mk.inj (Except.ok.inj ran) with ⟨rfl, _⟩
        rfl
      · rcases Prod.mk.inj (Except.ok.inj ran) with ⟨rfl, _⟩
        rfl
  | choose target =>
      cases target with
      | none =>
          rcases Prod.mk.inj (Except.ok.inj ran) with ⟨rfl, _⟩
          rfl
      | some target =>
          rcases Prod.mk.inj (Except.ok.inj ran) with ⟨rfl, _⟩
          rfl
  | _ =>
      rcases Prod.mk.inj (Except.ok.inj ran) with ⟨rfl, _⟩
      rfl

theorem ticks_of_other (notTick : event ≠ .tick)
    (stepped : step layout event machine = some (.ok machine')) :
    machine'.kernel.ticks = machine.kernel.ticks := by
  cases event with
  | tick => exact absurd rfl notTick
  | call op =>
      rcases step_call stepped with ⟨_, _, rfl⟩
      cases op <;> rfl
  | run =>
      rcases code_of_run stepped with ⟨stmt, rest, code⟩
      by_cases switch : isSwitch stmt = true
      · cases stmt with
        | swtchToIdle old =>
            simp only [Processor.step, runStmt, code] at stepped
            rcases Except.ok.inj (Option.some.inj stepped) with rfl
            rfl
        | swtchFromIdle =>
            simp only [Processor.step, runStmt, code] at stepped
            rcases Except.ok.inj (Option.some.inj stepped) with rfl
            rfl
        | _ => cases switch
      · have notSwitch : isSwitch stmt = false := by simpa using switch
        rcases step_of_code code notSwitch stepped with
          ⟨impossible, _⟩ | ⟨_, kernel, more, success, rfl⟩
        · cases impossible
        · exact ticks_of_exec success

end Steps

/-! ## The call -/

/-- The timer traps of a run that find the process asleep. -/
def trapsAsleep (p : Nat) (machine : Machine) (steps : List (Event × Machine)) :
    Nat :=
  count (fun before event _ => isTick event = true ∧
    (before.kernel.procs p).state = .sleeping) machine steps

/-- The steps of a run in which the process makes a call. -/
def callsMade (p : Nat) (machine : Machine) (steps : List (Event × Machine)) :
    Nat :=
  count (fun before event _ => isCall event = true ∧ before.thread = p) machine
    steps

/--
A call of `sleep` by the process `p`, when `count` timer traps have come while it
slept.
-/
inductive SleepCall (p : Nat) (nticks : Int) : Nat → Machine → Prop where
  /-- It has not stored its count yet. -/
  | entering {machine : Machine} {k : Nat} (early : k ≤ 4)
      (inside : Inside p nticks k machine) : SleepCall p nticks 0 machine
  /-- It sleeps; the first statements of `sched` are its own. -/
  | asleep {machine : Machine} {count j : Nat}
      (sleeps : Asleep p nticks count machine) (bound : j ≤ 5)
      (rest : pending p machine = (sched p).drop j)
      (thread : j ≤ 4 → machine.thread = p) :
      SleepCall p nticks count machine
  /-- It has been woken, and has at most the last check of `sched` to do. -/
  | woken {machine : Machine} {count : Nat} (all : (count : Int) = nticks)
      (awake : (machine.kernel.procs p).state ≠ .sleeping)
      (rest : pending p machine = (sched p).drop 5 ∨ pending p machine = []) :
      SleepCall p nticks count machine

section Call

variable {layout : Layout} {phase : Phase} {machine machine' : Machine}
variable {event : Event} {p count : Nat} {nticks : Int}

/-- With nothing to do but the last check, a process is not giving up the
processor. -/
theorem own_of_returning (good : Good phase machine)
    (thread : machine.thread = p)
    (rest : pending p machine = (sched p).drop 5 ∨ pending p machine = []) :
    phase = .own p := by
  have typed := good.typed
  have same : phase.thread = p := good.thread.symm.trans thread
  rw [pending_of_thread thread] at rest
  rcases rest with last | done
  · rw [last] at typed
    cases typed with
    | check _ typed =>
        cases typed with
        | done t => exact congrArg Phase.own same
  · rw [done] at typed
    cases typed with
    | done t => exact congrArg Phase.own same

theorem running_of_returning (good : Good phase machine)
    (thread : machine.thread = p)
    (rest : pending p machine = (sched p).drop 5 ∨ pending p machine = []) :
    (machine.kernel.procs p).state = .running := by
  obtain rfl := own_of_returning good thread rest
  exact (good.fits.holds.running p).mpr (Or.inr rfl)

/-- No move puts a process to sleep that is not giving up the processor. -/
theorem awake_of_move {phase' : Phase} {before after : Core}
    (holds : Holds phase before) (move : Move phase before phase' after)
    (awake : before.state p ≠ .sleeping)
    (notQuiet : ∀ how, phase ≠ .quiet p how)
    (notStored : ∀ how, phase ≠ .stored p how) :
    after.state p ≠ .sleeping := by
  rcases holds.change move p with same | change
  · rw [Core.state, same]
    exact awake
  · rw [Core.state]
    generalize after.procs p = proc at change
    cases change with
    | reserve | ready | dispatch => simp
    | leave how quiet => exact absurd quiet (notQuiet how)
    | store how stored => exact absurd stored (notStored how)

theorem awake_of_step (good : Good phase machine) (notTick : event ≠ .tick)
    (stepped : step layout event machine = some (.ok machine'))
    (awake : (machine.kernel.procs p).state ≠ .sleeping)
    (notQuiet : ∀ how, phase ≠ .quiet p how)
    (notStored : ∀ how, phase ≠ .stored p how) :
    (machine'.kernel.procs p).state ≠ .sleeping := by
  rcases (good.step stepped).2 machine' rfl with ⟨phase', good', next⟩
  generalize after : core machine'.kernel = core' at next
  have state : (machine'.kernel.procs p).state = core'.state p :=
    congrArg (fun core => Core.state core p) after
  rw [state]
  cases next with
  | tick => exact absurd rfl notTick
  | move _ move =>
      exact awake_of_move good.fits.holds move awake notQuiet notStored

/-- On its way through `sched`, a process has interrupts off. -/
theorem masked_of_sched (good : Good phase machine) {j : Nat} (early : j ≤ 4)
    (code : machine.code = (sched p).drop j) : phase.masked = true := by
  have typed := good.typed
  rw [code] at typed
  have atHand {rest : List Stmt}
      (typed : Typed phase (.setCurprocIdle :: rest)) :
      phase.masked = true := by
    cases typed with
    | hand => rfl
  have atSwitch {rest : List Stmt}
      (typed : Typed phase (.swtchToIdle p :: rest)) :
      phase.masked = true := by
    cases typed with
    | toIdle => rfl
  obtain rfl | rfl | rfl | rfl | rfl :
    j = 0 ∨ j = 1 ∨ j = 2 ∨ j = 3 ∨ j = 4 := by omega
  · cases typed with
    | check _ typed =>
        cases typed with
        | check _ typed => exact atHand typed
  · cases typed with
    | check _ typed => exact atHand typed
  · exact atHand typed
  · cases typed with
    | plain _ typed => exact atSwitch typed
  · exact atSwitch typed

/-- One statement of `sched` after the other, up to the switch. -/
theorem pending_sched (good : Good phase machine)
    (thread : machine.thread = p) {j : Nat} (early : j ≤ 4)
    (code : machine.code = (sched p).drop j)
    (ran : step layout .run machine = some (.ok machine')) :
    pending p machine' = (sched p).drop (j + 1) ∧
      (j + 1 ≤ 4 → machine'.thread = p) := by
  by_cases before : j ≤ 3
  · obtain rfl | rfl | rfl | rfl : j = 0 ∨ j = 1 ∨ j = 2 ∨ j = 3 := by omega
    all_goals
      rcases pending_run thread code rfl rfl ran with ⟨thread', rest⟩
      exact ⟨rest, fun _ => thread'⟩
  · obtain rfl : j = 4 := by omega
    rcases good.toIdle code with ⟨how, rfl, _⟩
    have process : p ≠ 0 := good.fits.holds.extra.1
    have notIdle : machine.kernel.idlectx ≠ p := by
      rw [good.fits.idlectx]
      exact process.symm
    have shape : machine.code = .swtchToIdle p :: (sched p).drop 5 := code
    simp only [Processor.step, runStmt, shape] at ran
    rcases Except.ok.inj (Option.some.inj ran) with rfl
    refine ⟨?_, fun impossible => absurd impossible (by decide)⟩
    rw [pending_of_ne notIdle]
    exact Function.update_self _ _ _

section Other

variable (good : Good phase machine) (notTick : event ≠ .tick)
variable (notCall : ∀ op, event = .call op → machine.thread ≠ p)
variable (stepped : step layout event machine = some (.ok machine'))
include good notTick stepped

/-- On its way to the store of its count, the process is the one that runs. -/
theorem sleepCall_of_inside {k : Nat} (early : k ≤ 4)
    (inside : Inside p nticks k machine) (positive : 0 < nticks) :
    SleepCall p nticks 0 machine' := by
  rcases (good.step stepped).2 machine' rfl with ⟨phase', good', _⟩
  rcases inside.step_cases positive early stepped with
    ⟨isTick, _⟩ | ⟨_, inside'⟩
  · exact absurd isTick notTick
  · by_cases more : k + 1 ≤ 4
    · exact .entering more inside'
    · obtain rfl : k = 4 := by omega
      have code := inside'.code
      rw [sleepFrom, sleep_eq positive] at code
      refine .asleep (j := 0) (inside'.asleep good' positive)
        (Nat.zero_le 5) ?_ fun _ => inside'.thread
      rw [pending_of_thread inside'.thread]
      exact code

include notCall

theorem sleepCall_of_asleep {j : Nat}
    (sleeps : Asleep p nticks count machine) (bound : j ≤ 5)
    (rest : pending p machine = (sched p).drop j)
    (thread : j ≤ 4 → machine.thread = p) :
    SleepCall p nticks count machine' := by
  have sleeps' := sleeps.other notTick stepped
  by_cases here : machine.thread = p
  · by_cases early : j ≤ 4
    · have code : machine.code = (sched p).drop j :=
        (pending_of_thread here).symm.trans rest
      cases event with
      | tick => exact absurd rfl notTick
      | call op => exact absurd here (notCall op rfl)
      | run =>
          rcases pending_sched good here early code stepped with
            ⟨rest', thread'⟩
          exact .asleep sleeps' (by omega) rest' thread'
    · obtain rfl : j = 5 := by omega
      have runs := running_of_returning good here (Or.inl rest)
      rw [sleeps.state] at runs
      cases runs
  · have late : ¬ j ≤ 4 := fun early => here (thread early)
    refine .asleep sleeps' bound ?_ fun early => absurd early late
    rw [pending_of_other good here stepped]
    exact rest

theorem sleepCall_of_woken (all : (count : Int) = nticks)
    (awake : (machine.kernel.procs p).state ≠ .sleeping)
    (rest : pending p machine = (sched p).drop 5 ∨ pending p machine = []) :
    SleepCall p nticks count machine' := by
  by_cases here : machine.thread = p
  · obtain rfl := own_of_returning good here rest
    have awake' := awake_of_step good notTick stepped awake (by simp) (by simp)
    cases event with
    | tick => exact absurd rfl notTick
    | call op => exact absurd here (notCall op rfl)
    | run =>
        rw [pending_of_thread here] at rest
        rcases rest with last | done
        · rcases pending_run here last rfl rfl stepped with ⟨_, done⟩
          exact .woken all awake' (Or.inr done)
        · rcases code_of_run stepped with ⟨stmt, rest, code⟩
          rw [done] at code
          cases code
  · have elsewhere : phase.thread ≠ p := good.thread ▸ here
    have awake' := awake_of_step good notTick stepped awake
      (fun how quiet => elsewhere (by rw [quiet]; rfl))
      (fun how stored => elsewhere (by rw [stored]; rfl))
    refine .woken all awake' ?_
    rw [pending_of_other good here stepped]
    exact rest

/-- A step that is not a timer trap, nor a new call by the process itself. -/
theorem SleepCall.other (call : SleepCall p nticks count machine)
    (positive : 0 < nticks) : SleepCall p nticks count machine' := by
  cases call with
  | entering early inside =>
      exact sleepCall_of_inside good notTick stepped early inside positive
  | asleep sleeps bound rest thread =>
      exact sleepCall_of_asleep good notTick notCall stepped sleeps bound rest
        thread
  | woken all awake rest =>
      exact sleepCall_of_woken good notTick notCall stepped all awake rest

end Other

/-- A timer trap that does not find the process asleep. -/
theorem SleepCall.tick_awake (call : SleepCall p nticks count machine)
    (positive : 0 < nticks)
    (awake : (machine.kernel.procs p).state ≠ .sleeping)
    (ticked : step layout .tick machine = some (.ok machine')) :
    SleepCall p nticks count machine' := by
  cases call with
  | entering early inside =>
      rcases inside.step_cases positive early ticked with
        ⟨_, _, inside'⟩ | ⟨impossible, _⟩
      · exact .entering early inside'
      · cases impossible
  | asleep sleeps => exact absurd sleeps.state awake
  | woken all awake rest =>
      refine .woken all ?_ ((pending_tick ticked p).symm ▸ rest)
      rcases step_tick ticked with ⟨_, rfl⟩
      have same := @Core.tick_procs_of_not_sleeping (core machine.kernel) p awake
      show ((core machine.kernel).tick.procs p).state ≠ .sleeping
      rw [same]
      exact awake

/-- A timer trap that finds the process asleep. -/
theorem SleepCall.tick_asleep (call : SleepCall p nticks count machine)
    (good : Good phase machine) (positive : 0 < nticks)
    (sleeping : (machine.kernel.procs p).state = .sleeping)
    (ticked : step layout .tick machine = some (.ok machine')) :
    SleepCall p nticks (count + 1) machine' := by
  cases call with
  | entering early inside =>
      rcases inside.step_cases positive early ticked with
        ⟨_, soon, _⟩ | ⟨impossible, _⟩
      · have runs := inside.state
        rw [if_pos (by omega), sleeping] at runs
        cases runs
      · cases impossible
  | @asleep _ _ j sleeps bound rest thread =>
      have off : ¬ j ≤ 4 := by
        intro early
        have code := (pending_of_thread (thread early)).symm.trans rest
        have masked := good.fits.masked (masked_of_sched good early code)
        rw [(step_tick ticked).1] at masked
        cases masked
      obtain rfl : j = 5 := by omega
      have rest' := (pending_tick ticked p).trans rest
      have next := sleeps.tick ticked
      have left := sleeps.left
      split at next
      · rename_i one
        refine .woken (by omega) ?_ (Or.inl rest')
        rw [next]
        exact nofun
      · exact .asleep next bound rest' fun early => absurd early off
  | woken all awake => exact absurd sleeping awake

/-- A whole run in which the process makes no other call. -/
theorem SleepCall.path {steps : List (Event × Machine)}
    (call : SleepCall p nticks count machine) (good : Good phase machine)
    (positive : 0 < nticks) (path : Path (step layout) machine steps machine')
    (inside : callsMade p machine steps = 0) :
    SleepCall p nticks (count + trapsAsleep p machine steps) machine' := by
  induction path generalizing count phase with
  | nil machine => exact call
  | @cons first second last event steps head rest induction =>
      rcases (good.step head).2 second rfl with ⟨phase', good', _⟩
      rw [callsMade, Rt64.Lib.Transition.count, Nat.add_eq_zero_iff] at inside
      rw [trapsAsleep, Rt64.Lib.Transition.count, ← Nat.add_assoc]
      by_cases trap : event = .tick
      · subst trap
        by_cases sleeping : (first.kernel.procs p).state = .sleeping
        · rw [if_pos ⟨rfl, sleeping⟩]
          exact induction (call.tick_asleep good positive sleeping head) good'
            inside.2
        · rw [if_neg fun found => sleeping found.2]
          exact induction (call.tick_awake positive sleeping head) good'
            inside.2
      · have notCall : ∀ op, event = .call op → first.thread ≠ p := by
          rintro op rfl here
          rw [if_pos ⟨rfl, here⟩] at inside
          exact absurd inside.1 Nat.one_ne_zero
        have notTrap : ¬ (isTick event = true ∧
            (first.kernel.procs p).state = .sleeping) := by
          rintro ⟨isTrap, _⟩
          cases event with
          | tick => exact trap rfl
          | _ => cases isTrap
        rw [if_neg notTrap]
        exact induction (call.other good trap notCall head positive) good'
          inside.2

/-- When the call has returned, all the traps that were asked for have come. -/
theorem SleepCall.returned (call : SleepCall p nticks count machine)
    (positive : 0 < nticks)
    (thread : machine.thread = p) (done : machine.code = []) :
    (count : Int) = nticks := by
  cases call with
  | @entering _ k early inside =>
      have code := inside.code
      rw [done, sleepFrom, sleep_eq positive] at code
      obtain rfl | rfl | rfl | rfl | rfl :
        k = 0 ∨ k = 1 ∨ k = 2 ∨ k = 3 ∨ k = 4 := by omega
      all_goals cases code
  | @asleep _ _ j sleeps bound rest =>
      rw [pending_of_thread thread, done] at rest
      have length := congrArg List.length rest
      rw [List.length_drop] at length
      have six : (sched p).length = 6 := rfl
      rw [six, List.length_nil] at length
      omega
  | woken all => exact all

/-- The call starts. -/
theorem sleepCall_of_call (good : Good phase machine)
    (called : step layout (.call (.sleep nticks)) machine =
      some (.ok machine')) (thread : machine.thread = p) :
    SleepCall p nticks 0 machine' := by
  rcases inside_of_call good called with ⟨_, inside⟩
  have resting : machine.code = [] := (step_call called).1
  have current : machine.kernel.curproc = p := by
    rw [← thread]
    exact curproc_of_done good resting
  rw [current] at inside
  exact .entering (Nat.zero_le 4) inside

/--
From the call of `sleep` in any good state to its return, however long the process
waits for the processor in between, exactly as many timer traps find it asleep as
it has asked for.
-/
theorem traps_of_return {called : Machine} {steps : List (Event × Machine)}
    (good : Good phase machine)
    (call : step layout (.call (.sleep nticks)) machine = some (.ok called))
    (thread : machine.thread = p)
    (path : Path (step layout) called steps machine')
    (inside : callsMade p called steps = 0)
    (back : machine'.thread = p) (done : machine'.code = []) :
    (trapsAsleep p called steps : Int) = nticks := by
  have positive := (inside_of_call good call).1
  rcases (good.step call).2 called rfl with ⟨phase', good', _⟩
  have run := (sleepCall_of_call good call thread).path good' positive path inside
  have all := run.returned positive back done
  rwa [Nat.zero_add] at all

end Call

end Rt64.Kernel.SleepReturn
