import Rt64.Kernel.Isolation
import Rt64.Kernel.Threads

/-!
# Invariants of the kernel's image

The abstract scheduler says nothing about the image: the table entries, the page
tables and the registers that a switch loads.  A `Contract` is something to be
kept up about them, between any two statements and, more strongly, whenever the
thread on the processor is in no kernel function, waits for work or switches.

`Ok` is the precondition under which statements keep a contract up whatever
timer traps come in between, and `Rules` lists what has to be shown of a
contract: what the hand-over to the idle process, a dispatch and the creation of
a process do to it.  A contract with these rules holds in every run.
-/

namespace Rt64.Kernel.Contracts

open Rt64.Lib.ByteMemory
open Rt64.Lib.Transition
open Rt64.Include.Defs
open Rt64.Kernel.Kalloc
open Rt64.Kernel.Process
open Rt64.Kernel.Spawn
open Rt64.Kernel.Isolation
open Rt64.Kernel.Processor
open Rt64.Kernel.Rounds
open Rt64.Kernel.Scheduler
open Rt64.Kernel.Threads

/-! ## What timer traps leave alone -/

/-- The kernels differ in states and counts of the processes at most, and the
same processes are there. -/
structure Alike (kernel kernel' : KernelState) : Prop where
  image : kernel'.image = kernel.image
  nproc : kernel'.nproc = kernel.nproc
  curproc : kernel'.curproc = kernel.curproc
  idleproc : kernel'.idleproc = kernel.idleproc
  live : ∀ p, Live kernel' p ↔ Live kernel p

section Alike

variable {kernel kernel' kernel'' : KernelState}

theorem Alike.refl (kernel : KernelState) : Alike kernel kernel :=
  ⟨rfl, rfl, rfl, rfl, fun _ => Iff.rfl⟩

theorem Alike.trans (alike : Alike kernel kernel')
    (alike' : Alike kernel' kernel'') : Alike kernel kernel'' :=
  ⟨alike'.image.trans alike.image, alike'.nproc.trans alike.nproc,
    alike'.curproc.trans alike.curproc, alike'.idleproc.trans alike.idleproc,
    fun p => (alike'.live p).trans (alike.live p)⟩

theorem alike_flags (kernel : KernelState) (cursor : Nat)
    (interruptible : Bool) :
    Alike kernel { kernel with cursor, interruptible } :=
  ⟨rfl, rfl, rfl, rfl, fun _ => Iff.rfl⟩

theorem live_setProc (kernel : KernelState) (p q : Nat) (proc : Proc) :
    Live (kernel.setProc p proc) q ↔
      if q = p then proc.state ≠ .uninit ∧ proc.state ≠ .reserve
      else Live kernel q := by
  simp only [Live, KernelState.setProc]
  split
  · rename_i same
    rw [same, Function.update_self]
  · rename_i other
    rw [Function.update_of_ne other]

theorem alike_timerTrap (kernel : KernelState) :
    Alike kernel (timerTrap kernel) := by
  refine ⟨rfl, rfl, rfl, rfl, ?_⟩
  intro p
  show (core kernel).tick.state p ≠ .uninit ∧
    (core kernel).tick.state p ≠ .reserve ↔ _
  rcases (core kernel).tick_state p with same | ⟨before, after⟩
  · rw [same]
    rfl
  · have asleep : (kernel.procs p).state = .sleeping := before
    rw [after]
    exact iff_of_true ⟨by simp, by simp⟩
      (live_of_state asleep (by simp) (by simp))

/-- A process that is there changes its own fields. -/
theorem alike_setProc {p : Nat} {proc : Proc} (live : Live kernel p)
    (state : proc.state ≠ .uninit ∧ proc.state ≠ .reserve) :
    Alike kernel (kernel.setProc p proc) := by
  refine ⟨rfl, rfl, rfl, rfl, ?_⟩
  intro q
  rw [live_setProc]
  split
  · rename_i same
    exact iff_of_true state (same ▸ live)
  · rfl

end Alike

/-! ## Contracts -/

/-- What is to hold while the thread `t` is on the processor, and what is to
hold of the kernel when it is in no function. -/
structure Contract where
  always : Nat → KernelState → Prop
  atRest : KernelState → Prop

/-- The statements of the loop in `idlemain` and of `find_runnable_proc`. -/
def waits : Stmt → Bool
  | .loop | .sti | .hlt | .probe | .advance | .choose _ => true
  | _ => false

/-- What is left of a function after its call of `swtch`. -/
def Tail (code : List Stmt) : Prop :=
  ∀ stmt ∈ code, match stmt with
    | .check .. | .loop => True
    | _ => False

/-- The statements of the thread `t` keep the contract up. -/
def Ok (contract : Contract) (t : Nat) : List Stmt → KernelState → Prop
  | [], kernel => contract.atRest kernel
  | stmt :: rest, kernel =>
      if isSwitch stmt then
        contract.always t kernel ∧ contract.atRest kernel ∧ Tail rest
      else if waits stmt then
        contract.atRest kernel
      else
        contract.always t kernel ∧
          ∀ kernel₁ kernel', Alike kernel kernel₁ →
            stmt.exec kernel₁ = .ok (kernel', []) →
              Ok contract t rest kernel'

/-! ## The kernel in a hand-over -/

def handOver (kernel : KernelState) : KernelState :=
  { kernel with curproc := kernel.idleproc }

def take (p : Nat) (kernel : KernelState) : KernelState :=
  { kernel with curproc := p }

def loadRoot (kernel : KernelState) : KernelState :=
  { kernel with
    image := { kernel.image with
      cr3 := v2p (kernel.slot kernel.curproc).ptRoot } }

def loadTss (kernel : KernelState) : KernelState :=
  { kernel with
    image :=
      let rsp := (kernel.slot kernel.curproc).kstack + kstackSz
      { kernel.image with
        tss1 := rsp.setWidth 32
        tss2 := (rsp >>> 32).setWidth 32 } }

/-- The entry `p` is being filled in; `taken` says by how much `nproc` has been
counted up. -/
structure Filling (p taken : Nat) (kernel kernel' : KernelState) : Prop where
  entry : p = kernel.nproc
  once : taken ≤ 1
  curproc : kernel'.curproc = kernel.curproc
  idleproc : kernel'.idleproc = kernel.idleproc
  nproc : kernel'.nproc = kernel.nproc + taken
  image : kernel'.image =
    { kernel.image with
      heap := kernel'.image.heap
      slots := kernel'.image.slots }
  slots : ∀ q, q ≠ p → kernel'.slot q = kernel.slot q
  pid : taken ≠ 0 → (kernel'.slot p).pid = p
  live : ∀ q, q ≠ p → (Live kernel' q ↔ Live kernel q)
  unborn : ¬ Live kernel' p

/-- What has to be shown of a contract. -/
structure Rules (layout : Layout) (contract : Contract) : Prop where
  alikeAlways : ∀ {t kernel kernel'}, Alike kernel kernel' →
    contract.always t kernel → contract.always t kernel'
  alikeRest : ∀ {kernel kernel'}, Alike kernel kernel' →
    contract.atRest kernel → contract.atRest kernel'
  resting : ∀ {kernel}, contract.atRest kernel →
    contract.always kernel.curproc kernel
  /-- `sched` hands over to the idle process. -/
  hand : ∀ {kernel}, contract.atRest kernel →
    kernel.curproc ≠ kernel.idleproc →
      contract.always kernel.curproc (handOver kernel) ∧
      contract.always kernel.curproc (loadRoot (handOver kernel)) ∧
      contract.atRest (loadRoot (handOver kernel))
  /-- `idlemain` dispatches a process. -/
  send : ∀ {kernel p}, contract.atRest kernel →
    kernel.curproc = kernel.idleproc → p ≠ kernel.idleproc → Live kernel p →
      contract.always kernel.curproc (take p kernel) ∧
      contract.always kernel.curproc (loadRoot (take p kernel)) ∧
      contract.always kernel.curproc (loadTss (loadRoot (take p kernel))) ∧
      contract.atRest (loadTss (loadRoot (take p kernel)))
  /-- A process is created. -/
  create : ∀ {kernel}, contract.atRest kernel → kernel.nproc < maxProc →
    ¬ Live kernel kernel.nproc → Live kernel kernel.curproc →
      (∀ taken kernel', Filling kernel.nproc taken kernel kernel' →
        contract.always kernel.curproc kernel') ∧
      ∀ (call : Call) kernel₁ kernel',
        execAll kernel (call.code layout kernel.nproc) = .ok kernel₁ →
          Alike kernel₁ kernel' → contract.atRest kernel'

/-! ## Statements -/

section Statements

variable {layout : Layout} {contract : Contract} {t : Nat}
variable {kernel kernel' : KernelState} {stmt : Stmt} {rest code : List Stmt}

theorem ok_cons (noSwitch : isSwitch stmt = false)
    (noWait : waits stmt = false) :
    Ok contract t (stmt :: rest) kernel ↔
      contract.always t kernel ∧
        ∀ kernel₁ kernel', Alike kernel kernel₁ →
          stmt.exec kernel₁ = .ok (kernel', []) →
            Ok contract t rest kernel' := by
  rw [Ok, noSwitch, noWait]
  rfl

theorem ok_switch (isSwitch : isSwitch stmt = true) :
    Ok contract t (stmt :: rest) kernel ↔
      contract.always t kernel ∧ contract.atRest kernel ∧ Tail rest := by
  rw [Ok, isSwitch]
  rfl

theorem ok_wait (noSwitch : isSwitch stmt = false)
    (isWait : waits stmt = true) :
    Ok contract t (stmt :: rest) kernel ↔ contract.atRest kernel := by
  rw [Ok, noSwitch, isWait]
  rfl

/-- Only the loop of `idlemain` unfolds to more statements. -/
theorem more_of_exec {more : List Stmt} (noWait : waits stmt = false)
    (ran : stmt.exec kernel = .ok (kernel', more)) : more = [] := by
  cases stmt with
  | check =>
      rw [Stmt.exec, assert_bind_eq_ok] at ran
      exact (Prod.mk.inj (Except.ok.inj ran.2)).2.symm
  | plain =>
      rw [Stmt.exec, bind_eq_ok] at ran
      rcases ran with ⟨image, _, same⟩
      exact (Prod.mk.inj (Except.ok.inj same)).2.symm
  | loop => cases noWait
  | probe => cases noWait
  | choose => cases noWait
  | _ => exact (Prod.mk.inj (Except.ok.inj ran)).2.symm

variable (rules : Rules layout contract)
include rules

theorem Ok.alike (ok : Ok contract t code kernel)
    (alike : Alike kernel kernel') : Ok contract t code kernel' := by
  cases code with
  | nil => exact rules.alikeRest alike ok
  | cons stmt rest =>
      cases switch : isSwitch stmt with
      | true =>
          rw [ok_switch switch] at ok ⊢
          exact ⟨rules.alikeAlways alike ok.1, rules.alikeRest alike ok.2.1,
            ok.2.2⟩
      | false =>
          cases wait : waits stmt with
          | true =>
              rw [ok_wait switch wait] at ok ⊢
              exact rules.alikeRest alike ok
          | false =>
              rw [ok_cons switch wait] at ok ⊢
              exact ⟨rules.alikeAlways alike ok.1,
                fun kernel₁ kernel₂ alike₁ =>
                  ok.2 kernel₁ kernel₂ (alike.trans alike₁)⟩

/-- A statement that leads to a kernel like the given one. -/
theorem ok_to (after : KernelState) (noSwitch : isSwitch stmt = false)
    (noWait : waits stmt = false)
    (lands : ∀ kernel₁ kernel', Alike kernel kernel₁ →
      stmt.exec kernel₁ = .ok (kernel', []) → Alike after kernel')
    (always : contract.always t kernel) (ok : Ok contract t rest after) :
    Ok contract t (stmt :: rest) kernel := by
  rw [ok_cons noSwitch noWait]
  refine ⟨always, ?_⟩
  intro kernel₁ kernel₂ alike ran
  exact ok.alike rules (lands kernel₁ kernel₂ alike ran)

theorem ok_check {site : Site} {text : String}
    {condition : KernelState → Bool} (always : contract.always t kernel)
    (ok : Ok contract t rest kernel) :
    Ok contract t (.check site text condition :: rest) kernel := by
  refine ok_to rules _ rfl rfl ?_ always ok
  intro kernel₁ kernel₂ alike ran
  rw [Stmt.exec, assert_bind_eq_ok] at ran
  rcases Prod.mk.inj (Except.ok.inj ran.2) with ⟨rfl, _⟩
  exact alike

theorem ok_cprintf {format : String} {args : List Arg}
    (always : contract.always t kernel) (ok : Ok contract t rest kernel) :
    Ok contract t (.cprintf format args :: rest) kernel := by
  refine ok_to rules _ rfl rfl ?_ always ok
  intro kernel₁ kernel₂ alike ran
  rcases Prod.mk.inj (Except.ok.inj ran) with ⟨rfl, _⟩
  exact alike

theorem ok_tail (tail : Tail code) (atRest : contract.atRest kernel) :
    Ok contract kernel.curproc code kernel := by
  induction code with
  | nil => exact atRest
  | cons stmt rest induction =>
      have first := tail stmt List.mem_cons_self
      have after := induction fun stmt member =>
        tail stmt (List.mem_cons_of_mem _ member)
      cases stmt with
      | check => exact ok_check rules (rules.resting atRest) after
      | loop => exact (ok_wait rfl rfl).mpr atRest
      | _ => exact absurd first id

/-- A statement by which the current process changes its own fields. -/
theorem ok_own (live : Live kernel kernel.curproc)
    {change : Proc → Proc} (noSwitch : isSwitch stmt = false)
    (noWait : waits stmt = false)
    (exec : ∀ kernel, stmt.exec kernel =
      .ok (kernel.setProc kernel.curproc (change (kernel.procs kernel.curproc)),
        []))
    (state : ∀ proc : Proc,
      proc.state ≠ .uninit ∧ proc.state ≠ .reserve →
        (change proc).state ≠ .uninit ∧ (change proc).state ≠ .reserve)
    (always : contract.always t kernel) (ok : Ok contract t rest kernel) :
    Ok contract t (stmt :: rest) kernel := by
  refine ok_to rules _ noSwitch noWait ?_ always ok
  intro kernel₁ kernel₂ alike ran
  rw [exec] at ran
  rcases Prod.mk.inj (Except.ok.inj ran) with ⟨rfl, _⟩
  have live₁ : Live kernel₁ kernel₁.curproc := by
    rw [alike.live, alike.curproc]
    exact live
  exact alike.trans (alike_setProc live₁ (state _ live₁))

theorem ok_cli (always : contract.always t kernel)
    (ok : Ok contract t rest kernel) :
    Ok contract t (.cli :: rest) kernel := by
  refine ok_to rules _ rfl rfl ?_ always ok
  intro kernel₁ kernel₂ alike ran
  rcases Prod.mk.inj (Except.ok.inj ran) with ⟨rfl, _⟩
  exact alike.trans (alike_flags kernel₁ _ false)

theorem ok_setCurState {state : ProcState} (live : Live kernel kernel.curproc)
    (alive : state ≠ .uninit ∧ state ≠ .reserve)
    (always : contract.always t kernel) (ok : Ok contract t rest kernel) :
    Ok contract t (.setCurState state :: rest) kernel :=
  @ok_own _ _ _ _ _ _ rules live (fun proc => { proc with state }) rfl rfl
    (fun _ => rfl) (fun _ _ => alive) always ok

theorem ok_lcr3 (always : contract.always t kernel)
    (ok : Ok contract t rest (loadRoot kernel)) :
    Ok contract t (.plain lcr3 :: rest) kernel := by
  refine ok_to rules _ rfl rfl ?_ always ok
  intro kernel₁ kernel₂ alike ran
  rcases Prod.mk.inj (Except.ok.inj ran) with ⟨rfl, _⟩
  refine ⟨?_, alike.nproc, alike.curproc, alike.idleproc, alike.live⟩
  simp only [loadRoot, KernelState.slot, alike.image, alike.curproc]

theorem ok_storeTss (always : contract.always t kernel)
    (ok : Ok contract t rest (loadTss kernel)) :
    Ok contract t (.plain storeTss :: rest) kernel := by
  refine ok_to rules _ rfl rfl ?_ always ok
  intro kernel₁ kernel₂ alike ran
  rw [Stmt.exec, storeTss, ok_bind] at ran
  have same : loadTss kernel₁ = kernel₂ := (Prod.mk.inj (Except.ok.inj ran)).1
  subst same
  unfold loadTss
  refine ⟨?_, alike.nproc, alike.curproc, alike.idleproc, ?_⟩
  · simp only [KernelState.slot, alike.image, alike.curproc]
  · have live := alike.live
    unfold Live at live ⊢
    exact live

end Statements

/-! ## Functions -/

section Functions

variable {layout : Layout} {contract : Contract} {kernel : KernelState}
variable (rules : Rules layout contract) (atRest : contract.atRest kernel)
include rules atRest

section Leave

variable (process : kernel.curproc ≠ kernel.idleproc)
include process

theorem ok_sched (tail : List Stmt) (isTail : Tail tail) :
    Ok contract kernel.curproc (sched kernel.curproc ++ tail) kernel := by
  rcases rules.hand atRest process with ⟨handed, always, atRest'⟩
  have resting := rules.resting atRest
  refine ok_check rules resting (ok_check rules resting ?_)
  refine ok_to rules (handOver kernel) rfl rfl ?_ resting ?_
  · intro kernel₁ kernel₂ alike ran
    rcases Prod.mk.inj (Except.ok.inj ran) with ⟨rfl, _⟩
    exact ⟨alike.image, alike.nproc, alike.idleproc, alike.idleproc,
      alike.live⟩
  · refine ok_lcr3 rules handed ?_
    refine (ok_switch rfl).mpr ⟨always, atRest', ?_⟩
    intro stmt member
    rcases List.mem_cons.mp member with rfl | member
    · trivial
    · exact isTail stmt member

variable (live : Live kernel kernel.curproc)
include live

theorem ok_yield : Ok contract kernel.curproc (yield kernel.curproc) kernel := by
  have resting := rules.resting atRest
  refine ok_check rules resting (ok_cli rules resting ?_)
  refine ok_setCurState rules live ⟨by simp, by simp⟩ resting ?_
  have ok := ok_sched rules atRest process [] nofun
  rwa [List.append_nil] at ok

theorem ok_exit (retval : BitVec 64) :
    Ok contract kernel.curproc (exit retval kernel.curproc) kernel := by
  have resting := rules.resting atRest
  refine ok_check rules resting (ok_cli rules resting ?_)
  refine ok_setCurState rules live ⟨by simp, by simp⟩ resting ?_
  refine @ok_own _ _ _ _ _ _ rules live (fun proc => { proc with retval })
    rfl rfl (fun _ => rfl) (fun _ state => state) resting ?_
  refine ok_cprintf rules resting (ok_sched rules atRest process _ ?_)
  intro stmt member
  rcases List.mem_singleton.mp member with rfl
  trivial

theorem ok_sleep (nticks : Int) :
    Ok contract kernel.curproc (sleep nticks kernel.curproc) kernel := by
  have resting := rules.resting atRest
  unfold sleep
  refine ok_check rules resting ?_
  split
  · exact atRest
  refine ok_check rules resting (ok_cli rules resting ?_)
  refine ok_setCurState rules live ⟨by simp, by simp⟩ resting ?_
  refine @ok_own _ _ _ _ _ _ rules live
    (fun proc => { proc with sleeprem := nticks })
    rfl rfl (fun _ => rfl) (fun _ state => state) resting ?_
  have ok := ok_sched rules atRest process [] nofun
  rwa [List.append_nil] at ok

end Leave

theorem ok_dispatch {p : Nat} (idle : kernel.curproc = kernel.idleproc)
    (process : p ≠ kernel.idleproc) (live : Live kernel p) :
    Ok contract kernel.curproc (dispatch p) kernel := by
  rcases rules.send atRest idle process live with
    ⟨taken, rooted, always, atRest'⟩
  refine ok_to rules (take p kernel) rfl rfl ?_
    (rules.resting atRest) ?_
  · intro kernel₁ kernel₂ alike ran
    rcases Prod.mk.inj (Except.ok.inj ran) with ⟨rfl, _⟩
    exact ⟨alike.image, alike.nproc, rfl, alike.idleproc, alike.live⟩
  · refine ok_setCurState rules live ⟨by simp, by simp⟩ taken ?_
    refine ok_lcr3 rules taken (ok_check rules rooted ?_)
    refine ok_storeTss rules rooted ?_
    refine (ok_switch rfl).mpr ⟨always, atRest', ?_⟩
    intro stmt member
    simp only [List.mem_cons, List.not_mem_nil, or_false] at member
    rcases member with rfl | rfl <;> trivial

end Functions

/-! ## Creating a process -/

/-- A statement of `spawn` or `spawnuser` works on the entry `p`, and timer traps
before it make no difference to what it does. -/
structure Fills (p taken taken' : Nat) (stmt : Stmt) : Prop where
  noSwitch : isSwitch stmt = false
  noWait : waits stmt = false
  frame : ∀ {start kernel kernel'}, Filling p taken start kernel →
    stmt.exec kernel = .ok (kernel', []) → Filling p taken' start kernel'
  blind : ∀ {kernel kernel₁ kernel₁'}, Alike kernel kernel₁ →
    stmt.exec kernel₁ = .ok (kernel₁', []) →
      ∃ kernel', stmt.exec kernel = .ok (kernel', []) ∧ Alike kernel' kernel₁'

/-- Statements that end with the new process being runnable. -/
inductive Script (p : Nat) : Nat → List Stmt → Prop where
  | ready : Script p 1 [.setState p .runnable]
  | cons {taken taken' : Nat} {stmt : Stmt} {rest : List Stmt}
      (fills : Fills p taken taken' stmt) (after : Script p taken' rest) :
      Script p taken (stmt :: rest)

section Create

variable {p taken : Nat} {start kernel kernel' : KernelState}

theorem Filling.alike (filling : Filling p taken start kernel)
    (alike : Alike kernel kernel') : Filling p taken start kernel' where
  entry := filling.entry
  once := filling.once
  curproc := alike.curproc.trans filling.curproc
  idleproc := alike.idleproc.trans filling.idleproc
  nproc := alike.nproc.trans filling.nproc
  image := by
    rw [alike.image]
    exact filling.image
  slots q other := by
    rw [KernelState.slot, alike.image]
    exact filling.slots q other
  pid isTaken := by
    rw [KernelState.slot, alike.image]
    exact filling.pid isTaken
  live q other := (alike.live q).trans (filling.live q other)
  unborn := (alike.live p).not.mpr filling.unborn

theorem alike_setState (alike : Alike kernel kernel') (state : ProcState) :
    Alike (kernel.setProc p { kernel.procs p with state })
      (kernel'.setProc p { kernel'.procs p with state }) := by
  refine ⟨alike.image, alike.nproc, alike.curproc, alike.idleproc, ?_⟩
  intro q
  rw [live_setProc, live_setProc]
  split
  · rfl
  · exact alike.live q

theorem fills_checkPrio (site : Site) (desc : NewProcDesc) :
    Fills p taken taken (checkPrio site desc) := by
  refine ⟨rfl, rfl, ?_, ?_⟩
  · intro start kernel kernel' filling ran
    rw [checkPrio, Stmt.exec, assert_bind_eq_ok] at ran
    rcases Prod.mk.inj (Except.ok.inj ran.2) with ⟨rfl, _⟩
    exact filling
  · intro kernel kernel₁ kernel₁' alike ran
    rw [checkPrio, Stmt.exec, assert_bind_eq_ok] at ran
    rcases Prod.mk.inj (Except.ok.inj ran.2) with ⟨rfl, _⟩
    refine ⟨kernel, ?_, alike⟩
    rw [checkPrio, Stmt.exec, assert_of_holds _ _ ran.1]
    rfl

theorem fills_reserve : Fills p taken taken (.setState p .reserve) := by
  refine ⟨rfl, rfl, ?_, ?_⟩
  · intro start kernel kernel' filling ran
    rcases Prod.mk.inj (Except.ok.inj ran) with ⟨rfl, _⟩
    refine { filling with live := ?_, unborn := ?_ }
    · intro q other
      rw [live_setProc, if_neg other]
      exact filling.live q other
    · rw [live_setProc, if_pos rfl]
      exact fun live => live.2 rfl
  · intro kernel kernel₁ kernel₁' alike ran
    rcases Prod.mk.inj (Except.ok.inj ran) with ⟨rfl, _⟩
    exact ⟨_, rfl, alike_setState alike .reserve⟩

theorem fills_takePid : Fills p 0 1 (.takePid p) := by
  refine ⟨rfl, rfl, ?_, ?_⟩
  · intro start kernel kernel' filling ran
    rcases Prod.mk.inj (Except.ok.inj ran) with ⟨rfl, _⟩
    refine { filling with
      once := le_rfl, nproc := ?_, image := ?_, slots := ?_, pid := ?_ }
    · exact congrArg (· + 1) filling.nproc
    · rw [KernelState.withSlot, filling.image]
    · intro q other
      refine Eq.trans ?_ (filling.slots q other)
      exact Function.update_of_ne other ..
    · intro _
      simp only [KernelState.slot, KernelState.withSlot, Function.update_self]
      exact filling.nproc.trans filling.entry.symm
  · intro kernel kernel₁ kernel₁' alike ran
    rcases Prod.mk.inj (Except.ok.inj ran) with ⟨rfl, _⟩
    refine ⟨_, rfl, ?_, ?_, alike.curproc, alike.idleproc, alike.live⟩
    · simp only [KernelState.withSlot, KernelState.slot, alike.image,
        alike.nproc]
    · exact congrArg (· + 1) alike.nproc

/-- A statement that changes the image only, depending on the image only. -/
theorem fills_plain {act : KernelState → Except Halt Image}
    (reads : ∀ kernel kernel' : KernelState,
      kernel'.image = kernel.image → act kernel' = act kernel)
    (frame : ∀ {start kernel : KernelState} {image : Image},
      Filling p taken start kernel → act kernel = .ok image →
        Filling p taken start { kernel with image }) :
    Fills p taken taken (.plain act) := by
  refine ⟨rfl, rfl, ?_, ?_⟩
  · intro start kernel kernel' filling ran
    rw [Stmt.exec, bind_eq_ok] at ran
    rcases ran with ⟨image, acted, same⟩
    rcases Prod.mk.inj (Except.ok.inj same) with ⟨rfl, _⟩
    exact frame filling acted
  · intro kernel kernel₁ kernel₁' alike ran
    rw [Stmt.exec, bind_eq_ok] at ran
    rcases ran with ⟨image, acted, same⟩
    rcases Prod.mk.inj (Except.ok.inj same) with ⟨rfl, _⟩
    rw [reads kernel kernel₁ alike.image] at acted
    refine ⟨{ kernel with image }, ?_, rfl, alike.nproc, alike.curproc,
      alike.idleproc, alike.live⟩
    rw [Stmt.exec, acted]
    rfl

theorem Filling.withHeap (filling : Filling p taken start kernel)
    (heap : Heap) :
    Filling p taken start
      { kernel with image := { kernel.image with heap } } := by
  refine { filling with image := ?_ }
  rw [filling.image]

theorem fills_write {mem : KernelState → Memory}
    (reads : ∀ kernel kernel' : KernelState,
      kernel'.image = kernel.image → mem kernel' = mem kernel) :
    Fills p taken taken (write mem) := by
  refine fills_plain ?_ ?_
  · intro kernel kernel' same
    rw [KernelState.withMem, KernelState.withMem, reads kernel kernel' same,
      same]
  · intro start kernel image filling acted
    rcases Except.ok.inj acted with rfl
    exact filling.withHeap _

theorem fills_writeSlot {slot : KernelState → Slot}
    (reads : ∀ kernel kernel' : KernelState,
      kernel'.image = kernel.image → slot kernel' = slot kernel)
    (pid : ∀ kernel, (slot kernel).pid = (kernel.slot p).pid) :
    Fills p taken taken (writeSlot p slot) := by
  refine fills_plain ?_ ?_
  · intro kernel kernel' same
    rw [KernelState.withSlot, KernelState.withSlot, reads kernel kernel' same,
      same]
  · intro start kernel image filling acted
    rcases Except.ok.inj acted with rfl
    refine { filling with image := ?_, slots := ?_, pid := ?_ }
    · rw [KernelState.withSlot, filling.image]
    · intro q other
      refine Eq.trans ?_ (filling.slots q other)
      exact Function.update_of_ne other ..
    · intro isTaken
      simp only [KernelState.slot, KernelState.withSlot, Function.update_self]
      exact (pid kernel).trans (filling.pid isTaken)

theorem fills_mapUstack (layout : Layout) :
    Fills p taken taken (.plain (mapUstack layout p)) := by
  refine fills_plain ?_ ?_
  · intro kernel kernel' same
    simp only [mapUstack, KernelState.slot, same]
  · intro start kernel image filling acted
    rw [mapUstack, bind_eq_ok] at acted
    rcases acted with ⟨heap, _, same⟩
    rcases Except.ok.inj same with rfl
    exact filling.withHeap heap

theorem script_allocproc (layout : Layout) {rest : List Stmt}
    (after : Script p 1 rest) : Script p 0 (allocproc layout p ++ rest) := by
  refine .cons fills_reserve (.cons fills_takePid
    (.cons (fills_write ?_) (.cons (fills_writeSlot ?_ fun _ => rfl) after)))
  · intro _ _ same
    simp only [KernelState.mem, same]
  · intro _ _ same
    simp only [KernelState.slot, same]

theorem script_setNameAndPrio (layout : Layout) (desc : NewProcDesc)
    {rest : List Stmt} (after : Script p 1 rest) :
    Script p 1 (setNameAndPrio layout desc p ++ rest) := by
  refine .cons (fills_write ?_) (.cons (fills_writeSlot ?_ fun _ => rfl) after)
  · intro _ _ same
    simp only [KernelState.mem, same]
  · intro _ _ same
    simp only [KernelState.slot, same]

theorem fills_setCtx (layout : Layout) (field : CtxField)
    {value : KernelState → BitVec 64}
    (reads : ∀ kernel kernel' : KernelState,
      kernel'.image = kernel.image → value kernel' = value kernel) :
    Fills p taken taken (setCtx layout p field value) :=
  fills_write fun kernel kernel' same => by
    simp only [KernelState.mem, same, reads kernel kernel' same]

theorem fills_setTf (field : TrapField) {value : KernelState → BitVec 64}
    (reads : ∀ kernel kernel' : KernelState,
      kernel'.image = kernel.image → value kernel' = value kernel) :
    Fills p taken taken (setTf p field value) :=
  fills_write fun kernel kernel' same => by
    simp only [KernelState.mem, KernelState.slot, same,
      reads kernel kernel' same]

theorem script_spawn (layout : Layout) (desc : NewProcDesc) :
    Script p 0 (spawn layout desc p) := by
  unfold spawn
  rw [List.append_assoc, List.append_assoc]
  refine .cons (fills_checkPrio _ _) (script_allocproc layout
    (script_setNameAndPrio layout desc ?_))
  refine .cons (fills_writeSlot ?_ fun _ => rfl) ?_
  · intro _ _ same
    simp only [KernelState.slot, same]
  iterate 5
    refine .cons (fills_setCtx layout _ ?_) ?_
    · intro _ _ same
      simp only [KernelState.ctx, KernelState.mem, KernelState.slot, same]
  refine .cons (fills_write ?_) (.cons (fills_setCtx layout _ ?_) .ready)
  · intro _ _ same
    simp only [KernelState.ctx, KernelState.mem, same]
  · intro _ _ same
    simp only [KernelState.ctx, KernelState.mem, same]

theorem script_spawnuser (layout : Layout) (desc : NewProcDesc) :
    Script p 0 (spawnuser layout desc p) := by
  unfold spawnuser
  rw [List.append_assoc, List.append_assoc]
  refine .cons (fills_checkPrio _ _) (script_allocproc layout
    (script_setNameAndPrio layout desc ?_))
  refine .cons (fills_writeSlot ?_ fun _ => rfl) ?_
  · intro _ _ same
    simp only [KernelState.slot, same]
  iterate 4
    refine .cons (fills_setCtx layout _ ?_) ?_
    · intro _ _ same
      simp only [KernelState.ctx, KernelState.mem, KernelState.slot, same]
  refine .cons (fills_writeSlot ?_ fun _ => rfl) (.cons (fills_write ?_)
    (.cons (fills_setCtx layout _ ?_) (.cons (fills_mapUstack layout) ?_)))
  · intro _ _ same
    simp only [KernelState.ctx, KernelState.mem, KernelState.slot, same]
  · intro _ _ same
    simp only [KernelState.mem, KernelState.slot, same]
  · intro _ _ same
    simp only [KernelState.ctx, KernelState.mem, same]
  iterate 3
    refine .cons (fills_setTf _ ?_) ?_
    · intro _ _ same
      simp only [KernelState.tf, KernelState.mem, KernelState.slot, same]
  refine .cons (fills_write ?_) ?_
  · intro _ _ same
    simp only [KernelState.tf, KernelState.mem, KernelState.slot, same]
  iterate 4
    refine .cons (fills_setTf _ ?_) ?_
    · intro _ _ _
      rfl
  exact .ready

theorem script_call (layout : Layout) (call : Call) :
    Script p 0 (call.code layout p) := by
  cases call with
  | spawn desc => exact script_spawn layout desc
  | spawnuser desc => exact script_spawnuser layout desc

/-- A script is run on top of timer traps: what it leaves is like what it would
have left without them. -/
theorem ok_script {contract : Contract} {t : Nat} {code : List Stmt}
    (script : Script p taken code) {uninterrupted : KernelState}
    (filling : Filling p taken start kernel)
    (alike : Alike uninterrupted kernel)
    (during : ∀ taken kernel', Filling p taken start kernel' →
      contract.always t kernel')
    (done : ∀ kernel₁ kernel', execAll uninterrupted code = .ok kernel₁ →
      Alike kernel₁ kernel' → contract.atRest kernel') :
    Ok contract t code kernel := by
  induction script generalizing kernel uninterrupted with
  | ready =>
      rw [ok_cons rfl rfl]
      refine ⟨during _ _ filling, ?_⟩
      intro kernel₁ kernel' alike₁ ran
      rcases Prod.mk.inj (Except.ok.inj ran) with ⟨rfl, _⟩
      exact done _ _ rfl (alike_setState (alike.trans alike₁) .runnable)
  | cons fills after induction =>
      rw [ok_cons fills.noSwitch fills.noWait]
      refine ⟨during _ _ filling, ?_⟩
      intro kernel₁ kernel' alike₁ ran
      rcases fills.blind (alike.trans alike₁) ran with ⟨next, ran', alike'⟩
      refine induction (fills.frame (filling.alike alike₁) ran) alike' ?_
      intro kernel₂ kernel₂' runs
      exact done kernel₂ kernel₂' ((execAll_cons _ ran').trans runs)

/-- An uninterrupted run of a script up to the statement that makes the process
runnable. -/
theorem path_to_ready (layout : Layout) {code : List Stmt}
    (script : Script p taken code)
    (ran : execAll kernel code = .ok kernel') (t : Nat)
    (saved : Nat → List Stmt) :
    ∃ steps early, Path (step layout) ⟨kernel, t, code, saved⟩ steps
        ⟨early, t, [.setState p .runnable], saved⟩ ∧
      (∀ entry ∈ steps, entry.2.code ≠ []) ∧
      (∀ start, Filling p taken start kernel → Filling p 1 start early) ∧
      early.setProc p { early.procs p with state := .runnable } = kernel' := by
  induction script generalizing kernel with
  | ready =>
      exact ⟨[], kernel, .nil _, nofun, fun _ filling => filling,
        Except.ok.inj ran⟩
  | @cons _ _ stmt rest fills after induction =>
      rw [execAll, List.foldlM_cons, bind_eq_ok] at ran
      rcases ran with ⟨middle, first, later⟩
      rw [bind_eq_ok] at first
      rcases first with ⟨⟨middle', more⟩, executed, same⟩
      obtain rfl := more_of_exec fills.noWait executed
      rcases Except.ok.inj same with rfl
      rcases induction later with ⟨steps, early, path, inside, frame, done⟩
      have more : rest ≠ [] := by
        cases after <;> exact List.cons_ne_nil _ _
      have head : step layout .run ⟨kernel, t, stmt :: rest, saved⟩ =
          some (.ok ⟨middle', t, rest, saved⟩) := by
        rw [step, runStmt_eq rfl fills.noSwitch, executed]
        rfl
      refine ⟨_, early, .cons head path, ?_, ?_, done⟩
      · intro entry member
        rcases List.mem_cons.mp member with rfl | later
        · exact more
        · exact inside entry later
      · exact fun start filling => frame start (fills.frame filling executed)

/-- An uninterrupted run of a script. -/
theorem path_of_script (layout : Layout) {code : List Stmt}
    (script : Script p taken code)
    (ran : execAll kernel code = .ok kernel') (t : Nat)
    (saved : Nat → List Stmt) :
    ∃ steps, Path (step layout) ⟨kernel, t, code, saved⟩ steps
      ⟨kernel', t, [], saved⟩ := by
  rcases path_to_ready layout script ran t saved with
    ⟨steps, early, path, _, _, rfl⟩
  have ready : step layout .run
      ⟨early, t, [.setState p .runnable], saved⟩ =
        some (.ok ⟨_, t, [], saved⟩) := rfl
  exact ⟨_, path.append (.single ready)⟩

theorem filling_start (unborn : ¬ Live kernel kernel.nproc) :
    Filling kernel.nproc 0 kernel kernel :=
  ⟨rfl, Nat.zero_le 1, rfl, rfl, rfl, rfl, fun _ _ => rfl, fun none => absurd rfl none,
    fun _ _ => Iff.rfl, unborn⟩

end Create

/-! ## Running the machine -/

/-- The machine keeps the contract up. -/
structure Upholds (contract : Contract) (machine : Machine) : Prop where
  ok : Ok contract machine.thread machine.code machine.kernel
  saved : ∀ t, Tail (machine.saved t)

section Machine

variable {layout : Layout} {contract : Contract} {machine machine' : Machine}
variable {phase : Phase}

/-- A thread that is in no function, or waits for work, is the current one. -/
theorem curproc_of_resting (good : Good phase machine)
    (resting : ∀ stmt rest, machine.code = stmt :: rest → waits stmt = true) :
    machine.kernel.curproc = machine.thread := by
  have current : machine.kernel.curproc = phase.curproc :=
    good.fits.holds.curproc
  have typed := good.typed
  rw [current, good.thread]
  generalize machine.code = code at typed resting
  cases typed with
  | done t => rfl
  | loop => rfl
  | sti => rfl
  | probe => rfl
  | skip => rfl
  | found p => rfl
  | chosen p => rfl
  | _ => cases resting _ _ rfl

theorem curproc_of_done (good : Good phase machine) (done : machine.code = []) :
    machine.kernel.curproc = machine.thread := by
  refine curproc_of_resting good ?_
  intro stmt rest code
  rw [done] at code
  cases code

/-- The current process at the time of a call. -/
theorem fits_own (good : Good phase machine) (idle : machine.code = []) :
    Fits (.own machine.kernel.curproc) machine.kernel := by
  have typed := good.typed
  rw [idle] at typed
  cases typed with
  | done t =>
      have current : machine.kernel.curproc = t := good.fits.holds.curproc
      rw [current]
      exact good.fits

theorem live_own {kernel : KernelState} {t : Nat} (fits : Fits (.own t) kernel) :
    Live kernel t :=
  live_of_state ((fits.holds.running t).mpr (Or.inr rfl)) (by simp) (by simp)

section Step

variable (rules : Rules layout contract)
variable (good : Good phase machine) (upholds : Upholds contract machine)
include rules upholds

/-- The thread on the processor takes up what is left of a function. -/
theorem Upholds.switch {stmt : Stmt} {rest : List Stmt} {t old : Nat}
    (code : machine.code = stmt :: rest) (isSwitch : isSwitch stmt = true)
    (current : machine.kernel.curproc = t) :
    Upholds contract
      { machine with
        thread := t
        saved := Function.update machine.saved old rest
        code := Function.update machine.saved old rest t } := by
  have ok := upholds.ok
  rw [code, ok_switch isSwitch] at ok
  have saved : ∀ u, Tail (Function.update machine.saved old rest u) := by
    intro u
    by_cases same : u = old
    · rw [same, Function.update_self]
      exact ok.2.2
    · rw [Function.update_of_ne same]
      exact upholds.saved u
  subst current
  exact ⟨ok_tail rules (saved _) ok.2.1, saved⟩

include good

theorem Upholds.always : contract.always machine.thread machine.kernel := by
  have ok := upholds.ok
  have current := @curproc_of_resting _ _ good
  rcases machine with ⟨kernel, t, code, saved⟩
  cases code with
  | nil =>
      obtain rfl : kernel.curproc = t := current nofun
      exact rules.resting ok
  | cons stmt rest =>
      cases switch : isSwitch stmt with
      | true => exact ((ok_switch switch).mp ok).1
      | false =>
          cases wait : waits stmt with
          | true =>
              obtain rfl : kernel.curproc = t := by
                apply current
                rintro _ _ ⟨rfl, rfl⟩
                exact wait
              exact rules.resting ((ok_wait switch wait).mp ok)
          | false => exact ((ok_cons switch wait).mp ok).1

/-- One more statement in the loop of `idlemain`. -/
theorem Upholds.wait {stmt : Stmt} {rest more : List Stmt}
    {kernel : KernelState} (code : machine.code = stmt :: rest)
    (noSwitch : isSwitch stmt = false) (isWait : waits stmt = true)
    (ran : stmt.exec machine.kernel = .ok (kernel, more)) :
    Upholds contract { machine with kernel, code := more ++ rest } := by
  refine ⟨?_, upholds.saved⟩
  have atRest := upholds.ok
  rw [code, ok_wait noSwitch isWait] at atRest
  have current := curproc_of_resting good (by
    rw [code]
    rintro _ _ ⟨rfl, rfl⟩
    exact isWait)
  have typed := good.typed
  rw [code] at typed
  show Ok contract machine.thread (more ++ rest) kernel
  cases typed with
  | loop =>
      rcases Prod.mk.inj (Except.ok.inj ran) with ⟨rfl, rfl⟩
      exact (ok_wait rfl rfl).mpr atRest
  | sti =>
      rcases Prod.mk.inj (Except.ok.inj ran) with ⟨rfl, rfl⟩
      exact (ok_wait rfl rfl).mpr (rules.alikeRest (alike_flags _ _ _) atRest)
  | probe =>
      rw [Stmt.exec] at ran
      split at ran <;> rcases Prod.mk.inj (Except.ok.inj ran) with ⟨rfl, rfl⟩
      · exact (ok_wait rfl rfl).mpr atRest
      · exact (ok_wait rfl rfl).mpr atRest
  | skip =>
      rcases Prod.mk.inj (Except.ok.inj ran) with ⟨rfl, rfl⟩
      exact (ok_wait rfl rfl).mpr (rules.alikeRest (alike_flags _ _ _) atRest)
  | found p =>
      rcases Prod.mk.inj (Except.ok.inj ran) with ⟨rfl, rfl⟩
      exact (ok_wait rfl rfl).mpr (rules.alikeRest (alike_flags _ _ _) atRest)
  | chosen p =>
      rcases Prod.mk.inj (Except.ok.inj ran) with ⟨rfl, rfl⟩
      have holds := good.fits.holds
      have idle : machine.kernel.curproc = machine.kernel.idleproc :=
        Eq.trans holds.curproc good.fits.idleproc.symm
      have runnable : (machine.kernel.procs p).state = .runnable :=
        holds.extra.1
      have process : p ≠ machine.kernel.idleproc := by
        rintro rfl
        have runs : (machine.kernel.procs machine.kernel.idleproc).state =
            .running := (holds.running _).mpr (Or.inl good.fits.idleproc)
        rw [runs] at runnable
        cases runnable
      rw [List.append_nil, ← current]
      exact ok_dispatch rules atRest idle process
        (live_of_state runnable (by simp) (by simp))
  | _ => cases isWait

theorem Upholds.call {op : Op} (idle : machine.code = [])
    (allowed : op.allowed machine.kernel = true) :
    Upholds contract
      { machine with
        kernel := op.enter machine.kernel
        code := op.code layout machine.kernel } := by
  refine ⟨?_, upholds.saved⟩
  have atRest := upholds.ok
  rw [idle] at atRest
  have fits := fits_own good idle
  have live := live_own fits
  have current := curproc_of_done good idle
  have unborn := not_live_nproc good
  have creates (call : Call) (room : machine.kernel.nproc < maxProc) :
      Ok contract machine.kernel.curproc
        (call.code layout machine.kernel.nproc) machine.kernel := by
    rcases rules.create atRest room unborn live with ⟨during, done⟩
    exact ok_script (script_call layout call) (filling_start unborn) (.refl _)
      during (done call)
  show Ok contract machine.thread _ _
  rw [← current]
  cases op with
  | idlemain => exact (ok_wait rfl rfl).mpr atRest
  | yield =>
      exact ok_yield rules atRest (by simpa [Op.allowed] using allowed) live
  | sleep nticks =>
      have both : machine.kernel.curproc ≠ machine.kernel.idleproc ∧
          0 < nticks := by simpa [Op.allowed] using allowed
      exact ok_sleep rules atRest both.1 live nticks
  | exit retval =>
      exact ok_exit rules atRest (by simpa [Op.allowed] using allowed) live
        retval
  | spawn desc =>
      exact creates (.spawn desc) (by simpa [Op.allowed] using allowed)
  | spawnuser desc =>
      exact creates (.spawnuser desc) (by simpa [Op.allowed] using allowed)
  | fault cause =>
      have ok := ok_exit rules atRest (by simpa [Op.allowed] using allowed)
        live killed
      refine Ok.alike rules ?_ (alike_flags _ _ false)
      exact ok_cprintf rules (rules.resting atRest) ok

/-- Every step of the machine keeps the contract up. -/
theorem Upholds.next {event : Event}
    (stepped : step layout event machine = some (.ok machine')) :
    Upholds contract machine' := by
  cases event with
  | tick =>
      rcases step_tick stepped with ⟨_, rfl⟩
      exact ⟨upholds.ok.alike rules (alike_timerTrap _), upholds.saved⟩
  | call op =>
      rcases step_call stepped with ⟨resting, allowed, rfl⟩
      exact upholds.call rules good resting allowed
  | run =>
      obtain ⟨stmt, rest, shape⟩ := code_of_run stepped
      cases switch : isSwitch stmt with
      | true =>
          cases stmt with
          | swtchToIdle old =>
              rcases good.toIdle shape with ⟨how, rfl, _⟩
              simp only [step, runStmt, shape] at stepped
              rcases Except.ok.inj (Option.some.inj stepped) with rfl
              refine upholds.switch rules shape rfl ?_
              exact Eq.trans good.fits.holds.curproc good.fits.idlectx.symm
          | swtchFromIdle =>
              simp only [step, runStmt, shape] at stepped
              rcases Except.ok.inj (Option.some.inj stepped) with rfl
              exact upholds.switch rules shape rfl rfl
          | _ => cases switch
      | false =>
          rcases step_of_code shape switch stepped with
            ⟨impossible, _⟩ | ⟨_, kernel, more, ran, rfl⟩
          · cases impossible
          cases wait : waits stmt with
          | true => exact upholds.wait rules good shape switch wait ran
          | false =>
              have ok := upholds.ok
              rw [shape, ok_cons switch wait] at ok
              obtain rfl := more_of_exec wait ran
              exact ⟨ok.2 _ _ (.refl _) ran, upholds.saved⟩

end Step

/-- A contract that holds once holds from then on. -/
theorem Upholds.path {steps : List (Event × Machine)}
    (rules : Rules layout contract) (good : Good phase machine)
    (upholds : Upholds contract machine)
    (path : Path (step layout) machine steps machine') :
    ∃ phase', Good phase' machine' ∧ Upholds contract machine' := by
  refine @Path.invariant _ _ _ _ _ _ _
    (fun machine => ∃ phase, Good phase machine ∧ Upholds contract machine)
    path ?_ ?_
  · rintro before event after ⟨phase, good, upholds⟩ stepped
    rcases (good.step stepped).2 after rfl with ⟨phase', good', _⟩
    exact ⟨phase', good', upholds.next rules good stepped⟩
  · exact ⟨phase, good, upholds⟩

end Machine

end Rt64.Kernel.Contracts
