import Rt64.Kernel.ProcessTable
import Rt64.Kernel.Trap

/-!
# The hardware context of a process

The page table register and the kernel stack in the task state segment are those
of the process whose code executes, whatever has been scheduled before.  An entry
from user mode therefore writes its frame to the kernel stack of that process,
and to no other one.
-/

namespace Rt64.Kernel.HardwareContext

open Rt64.Lib.ByteMemory
open Rt64.Lib.Transition
open Rt64.Lib.X64
open Rt64.Include.Defs
open Rt64.Kernel.Process
open Rt64.Kernel.Spawn
open Rt64.Kernel.Isolation
open Rt64.Kernel.Processor
open Rt64.Kernel.Rounds
open Rt64.Kernel.Scheduler
open Rt64.Kernel.Threads
open Rt64.Kernel.Trap
open Rt64.Kernel.Contracts
open Rt64.Kernel.Main
open Rt64.Kernel.ProcessTable

/-! ## The address space of a process -/

/-- A page table root that a switch and the creation of a process leave alone. -/
def Fixed (root : Image → Addr) : Prop :=
  ∀ image image' : Image, image'.kpml4 = image.kpml4 →
    image'.upml4 = image.upml4 → root image' = root image

theorem fixed_rootOf (call : Call) : Fixed (rootOf call) := by
  intro image image' kpml4 upml4
  cases call with
  | spawn desc => exact kpml4
  | spawnuser desc => exact upml4

/-- The process `p` has been given the address space `root`. -/
def Rooted (p : Nat) (root : Image → Addr) (kernel : KernelState) : Prop :=
  p < kernel.nproc ∧ (kernel.slot p).ptRoot = root kernel.image

/-- Once `p` is there, it is rooted. -/
def rootContract (p : Nat) (root : Image → Addr) : Contract where
  always _ kernel := Live kernel p → Rooted p root kernel
  atRest := Rooted p root

section Root

variable {layout : Layout} {p : Nat} {root : Image → Addr}
variable {kernel kernel' : KernelState}

theorem Rooted.of_image (fixed : Fixed root) (rooted : Rooted p root kernel)
    (nproc : kernel.nproc ≤ kernel'.nproc)
    (slot : kernel'.slot p = kernel.slot p)
    (kpml4 : kernel'.image.kpml4 = kernel.image.kpml4)
    (upml4 : kernel'.image.upml4 = kernel.image.upml4) :
    Rooted p root kernel' := by
  refine ⟨rooted.1.trans_le nproc, ?_⟩
  rw [slot, rooted.2, fixed _ _ kpml4 upml4]

theorem Rooted.alike (rooted : Rooted p root kernel)
    (alike : Alike kernel kernel') : Rooted p root kernel' := by
  refine ⟨alike.nproc ▸ rooted.1, ?_⟩
  rw [KernelState.slot, alike.image]
  exact rooted.2

theorem rootRules (layout : Layout) (fixed : Fixed root) :
    Rules layout (rootContract p root) where
  alikeAlways alike always live :=
    (always ((alike.live p).mp live)).alike alike
  alikeRest alike rooted := rooted.alike alike
  resting rooted _ := rooted
  hand rooted _ :=
    ⟨fun _ => rooted.of_image fixed le_rfl rfl rfl rfl,
      fun _ => rooted.of_image fixed le_rfl rfl rfl rfl,
      rooted.of_image fixed le_rfl rfl rfl rfl⟩
  send rooted _ _ _ :=
    ⟨fun _ => rooted.of_image fixed le_rfl rfl rfl rfl,
      fun _ => rooted.of_image fixed le_rfl rfl rfl rfl,
      fun _ => rooted.of_image fixed le_rfl rfl rfl rfl,
      rooted.of_image fixed le_rfl rfl rfl rfl⟩
  create {kernel} rooted room _ _ := by
    have other : p ≠ kernel.nproc := rooted.1.ne
    constructor
    · intro taken kernel' fills _
      refine rooted.of_image fixed ?_ (fills.slots p other) ?_ ?_
      · rw [fills.nproc]
        exact Nat.le_add_right _ _
      · rw [fills.image]
      · rw [fills.image]
    · intro call kernel₁ kernel' ran alike
      have entered := entered_of_execAll room ran
      have after : Rooted p root kernel₁ := by
        refine rooted.of_image fixed ?_ (entered.older other) ?_ ?_
        · rw [entered.nproc]
          exact Nat.le_succ _
        · rcases entered.built with ⟨heap, slot, rfl⟩
          rfl
        · rcases entered.built with ⟨heap, slot, rfl⟩
          rfl
      exact after.alike alike

end Root

section Machine

variable {layout : Layout} {machine machine' : Machine}

/-- A process that a call has created has the address space that goes with the
call from then on. -/
theorem rooted_of_call {call : Call} {created : Machine}
    {steps : List (Event × Machine)} (started : Started layout machine)
    (called : step layout (.call (callOp call)) machine = some (.ok created))
    (path : Path (step layout) created steps machine')
    (live : Live machine'.kernel machine.kernel.nproc) :
    (machine'.kernel.slot machine.kernel.nproc).ptRoot =
      rootOf call machine'.kernel.image := by
  let p := machine.kernel.nproc
  have rules : Rules layout (rootContract p (rootOf call)) :=
    rootRules layout (fixed_rootOf call)
  rcases Started.table started with ⟨phase, good, upholds⟩
  rcases (good.step called).2 created rfl with ⟨phase', good', _⟩
  rcases created_of_call called with ⟨resting, room, rfl⟩
  have unborn : ¬ Live machine.kernel p := not_live_nproc good
  have ok : Ok (rootContract p (rootOf call)) machine.thread
      (call.code layout p) machine.kernel := by
    refine ok_script (script_call layout call) (filling_start unborn) (.refl _)
      ?_ ?_
    · intro taken kernel' fills isLive
      exact absurd isLive fills.unborn
    · intro kernel₁ kernel' ran alike
      have entered := entered_of_execAll room ran
      have rooted : Rooted p (rootOf call) kernel₁ := by
        refine ⟨?_, entered.ptRoot⟩
        rw [entered.nproc]
        exact Nat.lt_succ_self _
      exact rooted.alike alike
  rcases Upholds.path rules good' ⟨ok, upholds.saved⟩ path with
    ⟨phase'', good'', upholds'⟩
  exact (upholds'.always rules good'' live).2

/-- Only the idle process waits for work. -/
theorem curproc_of_wait {phase : Phase} {stmt : Stmt} {rest : List Stmt}
    (good : Good phase machine) (code : machine.code = stmt :: rest)
    (isWait : waits stmt = true) : machine.kernel.curproc = 0 := by
  have current : machine.kernel.curproc = phase.curproc :=
    good.fits.holds.curproc
  have typed := good.typed
  rw [code] at typed
  rw [current]
  cases typed <;> first | rfl | cases isWait

theorem noSwitch_of_wait {stmt : Stmt} (isWait : waits stmt = true) :
    isSwitch stmt = false := by
  cases stmt <;> first | rfl | cases isWait

end Machine

/-! ## Entries from user mode -/

/-- The stack for entries from user mode starts at the top of a kernel stack. -/
theorem enterTrap_in_kstack (layout : Layout) (text : Text) (n : Nat)
    (code : BitVec 64) {cpu : Cpu} {kstack address : Addr}
    (user : cpu.cpl ≠ 0) (loaded : cpu.rsp0 = kstack + kstackSz)
    (outside : ¬ Within kstack 4096 address) :
    (enterTrap layout text n code cpu).mem address = cpu.mem address := by
  apply enterTrap_outside
  intro inside
  apply outside
  rcases align_add (kstack + kstackSz) with ⟨rest, small, top⟩
  rw [frameAddr, deliverTop, if_neg user, loaded] at inside
  generalize (kstack + kstackSz) &&& ~~~ 15#64 = aligned at top inside
  simp only [Within] at inside ⊢
  bv_omega

/--
In every run of the kernel, while the code of a process other than the idle one
executes, the page table register and the task state segment are those of
`curproc`, and while the idle process waits for work the address space is the
kernel's.  The address space of a process is the one of the call that created it.
The kernel stacks of the processes are disjoint, and an entry from user mode
writes to the one of the current process only.
-/
theorem hardware_context_agrees {layout : Layout} {machine : Machine}
    (started : Started layout machine) :
    let kernel := machine.kernel
    (machine.code = [] → kernel.curproc = machine.thread) ∧
      (machine.thread ≠ kernel.idleproc → kernel.curproc = machine.thread →
        kernel.image.cr3 = v2p (kernel.slot kernel.curproc).ptRoot ∧
        rsp0 kernel.image = (kernel.slot kernel.curproc).kstack + kstackSz ∧
        ∀ text n code (cpu : Cpu), cpu.cpl ≠ 0 →
          cpu.rsp0 = rsp0 kernel.image → ∀ address,
          (enterTrap layout text n code cpu).mem address ≠ cpu.mem address →
            Within (kernel.slot kernel.curproc).kstack 4096 address ∧
            ∀ q, q ≠ kernel.curproc → 0 < q → Live kernel q →
              ¬ Within (kernel.slot q).kstack 4096 address) ∧
      (∀ stmt rest, machine.code = stmt :: rest → waits stmt = true →
        kernel.image.cr3 = v2p kernel.image.kpml4) ∧
      (∀ call created steps machine',
        step layout (.call (callOp call)) machine = some (.ok created) →
        Path (step layout) created steps machine' →
        Live machine'.kernel kernel.nproc →
          (machine'.kernel.slot kernel.nproc).ptRoot =
            rootOf call machine'.kernel.image) ∧
      ∀ p q, 0 < p → 0 < q → p ≠ q → Live kernel p → Live kernel q →
        Apart (kernel.slot p).kstack 4096 (kernel.slot q).kstack 4096 := by
  intro kernel
  rcases Started.table started with ⟨phase, good, upholds⟩
  have always := upholds.always (tableRules layout) good
  have table := always.1
  have bound {p : Nat} (live : Live kernel p) : p < maxProc :=
    good.fits.holds.lt_maxProc live.1
  have apart (p q : Nat) (process : 0 < p) (process' : 0 < q)
      (different : p ≠ q) (live : Live kernel p) (live' : Live kernel q) :
      Apart (kernel.slot p).kstack 4096 (kernel.slot q).kstack 4096 := by
    rw [table.kstack p process live, table.kstack q process' live']
    exact Stacks.kstack_apart_kstack (bound live) (bound live') different
  refine ⟨?_, ?_, ?_, ?_, apart⟩
  · intro resting
    exact curproc_of_done good resting
  · intro process current
    have notIdle : machine.thread ≠ 0 := table.idleproc ▸ process
    have loaded := always.2 notIdle current
    rw [← current] at loaded notIdle
    refine ⟨loaded.cr3, loaded.rsp0, ?_⟩
    intro text n code cpu user isLoaded address changed
    have inside : Within (kernel.slot kernel.curproc).kstack 4096 address := by
      by_contra outside
      exact changed (enterTrap_in_kstack layout text n code user
        (isLoaded.trans loaded.rsp0) outside)
    refine ⟨inside, ?_⟩
    intro q other process' live'
    exact apart _ q (Nat.pos_of_ne_zero notIdle) process' other.symm
      good.fits.holds.current_used live' address inside
  · intro stmt rest code isWait
    have atRest := upholds.ok
    rw [code, ok_wait (noSwitch_of_wait isWait) isWait] at atRest
    exact atRest.2.2 (curproc_of_wait good code isWait)
  · intro call created steps machine' called path live
    exact rooted_of_call started called path live

theorem hardware_context_agrees_first_process :
    ∃ machine, Started sampleLayout machine ∧ machine.thread = 1 ∧
      machine.kernel.curproc = 1 ∧
      machine.kernel.image.cr3 = v2p (machine.kernel.slot 1).ptRoot ∧
      rsp0 machine.kernel.image =
        (machine.kernel.slot 1).kstack + kstackSz := by
  rcases @sample_running (.spawn sampleDesc) sampleDesc_prioValid with
    ⟨machine, started, thread, _, current, idleproc, _⟩
  have loaded := (hardware_context_agrees started).2.1
    (by rw [thread, idleproc]; decide) (current.trans thread.symm)
  rw [current] at loaded
  exact ⟨machine, started, thread, current, loaded.1, loaded.2.1⟩

end Rt64.Kernel.HardwareContext
