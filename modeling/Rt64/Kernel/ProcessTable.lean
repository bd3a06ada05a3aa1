import Rt64.Kernel.Main

/-!
# The process table and the registers of a switch

What the table entries hold in every run: the process numbers, the kernel stacks
and the address spaces of the processes, and how the page table register and the
task state segment follow `curproc`.
-/

namespace Rt64.Kernel.ProcessTable

open Rt64.Lib.ByteMemory
open Rt64.Lib.Transition
open Rt64.Include.Defs
open Rt64.Kernel.Kalloc
open Rt64.Kernel.Process
open Rt64.Kernel.Spawn
open Rt64.Kernel.Isolation
open Rt64.Kernel.Processor
open Rt64.Kernel.Rounds
open Rt64.Kernel.Scheduler
open Rt64.Kernel.Threads
open Rt64.Kernel.Contracts
open Rt64.Kernel.Main

/-! ## The contract -/

/-- The stack for entries from user mode: the second and third word of the task
state segment. -/
def rsp0 (image : Image) : Addr :=
  image.tss2.setWidth 64 <<< 32 ||| image.tss1.setWidth 64

/-- The entries of the idle process and of the processes that are there. -/
structure Table (layout : Layout) (kernel : KernelState) : Prop where
  idleproc : kernel.idleproc = 0
  idlePid : (kernel.slot 0).pid = 1
  idleRoot : (kernel.slot 0).ptRoot = kernel.image.kpml4
  pid : ∀ p, 0 < p → p < kernel.nproc → (kernel.slot p).pid = p
  kstack : ∀ p, 0 < p → Live kernel p →
    (kernel.slot p).kstack = kstackAddr layout p
  ptRoot : ∀ p, Live kernel p →
    (kernel.slot p).ptRoot = kernel.image.kpml4 ∨
      (kernel.slot p).ptRoot = kernel.image.upml4
  below : ∀ p, Live kernel p → p < kernel.nproc

/-- The registers are those of the process `p`. -/
structure Loaded (kernel : KernelState) (p : Nat) : Prop where
  cr3 : kernel.image.cr3 = v2p (kernel.slot p).ptRoot
  rsp0 : rsp0 kernel.image = (kernel.slot p).kstack + kstackSz

def tableContract (layout : Layout) : Contract where
  always t kernel := Table layout kernel ∧
    (t ≠ 0 → kernel.curproc = t → Loaded kernel t)
  atRest kernel := Table layout kernel ∧
    (kernel.curproc ≠ 0 → Loaded kernel kernel.curproc) ∧
    (kernel.curproc = 0 → kernel.image.cr3 = v2p kernel.image.kpml4)

section Rules

variable {layout : Layout} {kernel kernel' : KernelState}

theorem Table.alike (table : Table layout kernel)
    (alike : Alike kernel kernel') : Table layout kernel' := by
  have slot (p : Nat) : kernel'.slot p = kernel.slot p := by
    rw [KernelState.slot, alike.image]
    rfl
  constructor
  · exact alike.idleproc.trans table.idleproc
  · rw [slot]
    exact table.idlePid
  · rw [slot, alike.image]
    exact table.idleRoot
  · intro p process inTable
    rw [slot]
    exact table.pid p process (alike.nproc ▸ inTable)
  · intro p process live
    rw [slot]
    exact table.kstack p process ((alike.live p).mp live)
  · intro p live
    rw [slot, alike.image]
    exact table.ptRoot p ((alike.live p).mp live)
  · intro p live
    rw [alike.nproc]
    exact table.below p ((alike.live p).mp live)

theorem Loaded.alike {p : Nat} (loaded : Loaded kernel p)
    (alike : Alike kernel kernel') : Loaded kernel' p := by
  constructor
  · rw [KernelState.slot, alike.image]
    exact loaded.cr3
  · rw [KernelState.slot, alike.image]
    exact loaded.rsp0

/-- The two words of the task state segment make up the address. -/
theorem rsp0_words (address : Addr) :
    ((address >>> 32).setWidth 32).setWidth 64 <<< 32 |||
      (address.setWidth 32).setWidth 64 = address := by
  apply BitVec.eq_of_getLsbD_eq
  intro i bound
  simp only [BitVec.getLsbD_or, BitVec.getLsbD_shiftLeft,
    BitVec.getLsbD_setWidth, BitVec.getLsbD_ushiftRight]
  by_cases low : i < 32
  · simp [low, bound]
  · have back : 32 + (i - 32) = i := by omega
    have high : i - 32 < 32 := by omega
    have high' : i - 32 < 64 := by omega
    simp [low, bound, back, high, high']

theorem loaded_of_load (kernel : KernelState) :
    Loaded (loadTss (loadRoot kernel)) kernel.curproc := by
  constructor
  · simp only [loadTss, loadRoot, KernelState.slot]
  · simp only [rsp0, loadTss, loadRoot, KernelState.slot]
    exact rsp0_words _

section Filling

variable {taken : Nat}
variable (fills : Filling kernel.nproc taken kernel kernel')
include fills

/-- While an entry is filled in, the rest of the table is as it was. -/
theorem Table.filling (table : Table layout kernel)
    (inUse : 0 < kernel.nproc) : Table layout kernel' := by
  have kpml4 : kernel'.image.kpml4 = kernel.image.kpml4 := by
    rw [fills.image]
  have upml4 : kernel'.image.upml4 = kernel.image.upml4 := by
    rw [fills.image]
  have older {p : Nat} (live : Live kernel' p) :
      p ≠ kernel.nproc ∧ Live kernel p := by
    have other : p ≠ kernel.nproc := by
      rintro rfl
      exact fills.unborn live
    exact ⟨other, (fills.live p other).mp live⟩
  constructor
  · exact fills.idleproc.trans table.idleproc
  · rw [fills.slots 0 inUse.ne]
    exact table.idlePid
  · rw [fills.slots 0 inUse.ne, kpml4]
    exact table.idleRoot
  · intro p process inTable
    rw [fills.nproc] at inTable
    by_cases isNew : p = kernel.nproc
    · subst isNew
      exact fills.pid (by omega)
    · have once := fills.once
      rw [fills.slots p isNew]
      exact table.pid p process (by omega)
  · intro p process live
    rcases older live with ⟨other, before⟩
    rw [fills.slots p other]
    exact table.kstack p process before
  · intro p live
    rcases older live with ⟨other, before⟩
    rw [fills.slots p other, kpml4, upml4]
    exact table.ptRoot p before
  · intro p live
    have inTable := table.below p (older live).2
    rw [fills.nproc]
    omega

theorem Loaded.filling {p : Nat} (loaded : Loaded kernel p)
    (other : p ≠ kernel.nproc) : Loaded kernel' p := by
  have cr3 : kernel'.image.cr3 = kernel.image.cr3 := by
    rw [fills.image]
  have words : ProcessTable.rsp0 kernel'.image =
      ProcessTable.rsp0 kernel.image := by
    rw [fills.image]
    rfl
  constructor
  · rw [fills.slots p other, cr3]
    exact loaded.cr3
  · rw [fills.slots p other, words]
    exact loaded.rsp0

end Filling

/-- What a call that creates a process leaves in its entry. -/
structure Entered (layout : Layout) (root : Image → Addr)
    (kernel kernel' : KernelState) : Prop where
  built : ∃ heap slot, kernel' = built kernel kernel.nproc .runnable heap slot
  pid : (kernel'.slot kernel.nproc).pid = kernel.nproc
  kstack : (kernel'.slot kernel.nproc).kstack = kstackAddr layout kernel.nproc
  ptRoot : (kernel'.slot kernel.nproc).ptRoot = root kernel'.image

theorem Entered.nproc {root : Image → Addr}
    (entered : Entered layout root kernel kernel') :
    kernel'.nproc = kernel.nproc + 1 := by
  rcases entered.built with ⟨heap, slot, rfl⟩
  rfl

theorem Entered.older {root : Image → Addr} {p : Nat}
    (entered : Entered layout root kernel kernel') (other : p ≠ kernel.nproc) :
    kernel'.slot p = kernel.slot p := by
  rcases entered.built with ⟨heap, slot, rfl⟩
  exact Function.update_of_ne other ..

/-- The address space of the process that a call creates. -/
def rootOf : Call → Image → Addr
  | .spawn _ => Image.kpml4
  | .spawnuser _ => Image.upml4

/-- `spawn` succeeds whatever the number of processes. -/
theorem entered_of_spawn {desc : NewProcDesc} (prioValid : PrioValid desc)
    (ran : execAll kernel (spawn layout desc kernel.nproc) = .ok kernel') :
    Entered layout Image.kpml4 kernel kernel' := by
  have same := ran.symm.trans (spawn_eq layout prioValid kernel)
  rcases Except.ok.inj same with rfl
  refine ⟨⟨_, _, rfl⟩, ?_, ?_, ?_⟩
  · rw [built_slot]
  · rw [built_slot]
  · rw [built_slot]
    rfl

theorem entered_of_execAll {call : Call} (room : kernel.nproc < maxProc)
    (ran : execAll kernel (call.code layout kernel.nproc) = .ok kernel') :
    Entered layout (rootOf call) kernel kernel' := by
  have prioValid := prioValid_of_execAll ran
  cases call with
  | spawn desc => exact entered_of_spawn prioValid ran
  | spawnuser desc =>
      rcases mapped_of_spawnuser layout prioValid room ran with ⟨heap, mapped⟩
      have same := ran.symm.trans (spawnuser_eq layout prioValid room mapped)
      rcases Except.ok.inj same with rfl
      refine ⟨⟨_, _, rfl⟩, ?_, ?_, ?_⟩ <;> (rw [built_slot]; rfl)

/-- The table has one more entry. -/
theorem Table.entered {call : Call} (table : Table layout kernel)
    (inUse : 0 < kernel.nproc)
    (entered : Entered layout (rootOf call) kernel kernel') :
    Table layout kernel' := by
  rcases entered with ⟨⟨heap, slot, rfl⟩, pid, kstack, ptRoot⟩
  have older {p : Nat} (other : p ≠ kernel.nproc) :
      (built kernel kernel.nproc .runnable heap slot).slot p =
        kernel.slot p := Function.update_of_ne other ..
  have live {p : Nat} (other : p ≠ kernel.nproc)
      (isLive : Live (built kernel kernel.nproc .runnable heap slot) p) :
      Live kernel p := by
    simp only [Live, built, Function.update_of_ne other] at isLive
    exact isLive
  constructor
  · exact table.idleproc
  · rw [older inUse.ne]
    exact table.idlePid
  · rw [older inUse.ne]
    exact table.idleRoot
  · intro p process inTable
    by_cases isNew : p = kernel.nproc
    · subst isNew
      exact pid
    · have inTable' : p < kernel.nproc + 1 := inTable
      rw [older isNew]
      exact table.pid p process (by omega)
  · intro p process isLive
    by_cases isNew : p = kernel.nproc
    · subst isNew
      exact kstack
    · rw [older isNew]
      exact table.kstack p process (live isNew isLive)
  · intro p isLive
    by_cases isNew : p = kernel.nproc
    · subst isNew
      cases call with
      | spawn desc => exact Or.inl ptRoot
      | spawnuser desc => exact Or.inr ptRoot
    · rw [older isNew]
      exact table.ptRoot p (live isNew isLive)
  · intro p isLive
    by_cases isNew : p = kernel.nproc
    · subst isNew
      exact Nat.lt_succ_self _
    · exact Nat.lt_succ_of_lt (table.below p (live isNew isLive))

theorem Loaded.entered {root : Image → Addr} {p : Nat}
    (loaded : Loaded kernel p) (other : p ≠ kernel.nproc)
    (entered : Entered layout root kernel kernel') : Loaded kernel' p := by
  rcases entered with ⟨⟨heap, slot, rfl⟩, _, _, _⟩
  have older : (built kernel kernel.nproc .runnable heap slot).slot p =
      kernel.slot p := Function.update_of_ne other ..
  constructor
  · rw [older]
    exact loaded.cr3
  · rw [older]
    exact loaded.rsp0

theorem tableRules (layout : Layout) : Rules layout (tableContract layout) where
  alikeAlways {t _ _} alike always := by
    refine ⟨always.1.alike alike, ?_⟩
    intro process current
    exact (always.2 process (alike.curproc ▸ current)).alike alike
  alikeRest {kernel kernel'} alike atRest := by
    refine ⟨atRest.1.alike alike, ?_, ?_⟩
    · intro process
      rw [alike.curproc] at process ⊢
      exact (atRest.2.1 process).alike alike
    · intro idle
      rw [alike.curproc] at idle
      rw [alike.image]
      exact atRest.2.2 idle
  resting atRest := ⟨atRest.1, fun process _ => atRest.2.1 process⟩
  hand {kernel} atRest process := by
    have idleproc := atRest.1.idleproc
    have table := atRest.1
    have handed : Table layout (handOver kernel) := { table with }
    have rooted : Table layout (loadRoot (handOver kernel)) := { table with }
    have gone (process : kernel.curproc ≠ 0) : kernel.idleproc ≠ kernel.curproc :=
      fun same => process (same.symm.trans idleproc)
    refine ⟨⟨handed, ?_⟩, ⟨rooted, ?_⟩, rooted, ?_, ?_⟩
    · intro process same
      exact absurd same (gone process)
    · intro process same
      exact absurd same (gone process)
    · intro process
      exact absurd idleproc process
    · intro _
      show v2p (kernel.slot kernel.idleproc).ptRoot = _
      rw [idleproc, table.idleRoot]
      rfl
  send {kernel p} atRest idle process live := by
    have idleproc := atRest.1.idleproc
    have table := atRest.1
    have taken : Table layout (take p kernel) := { table with }
    have rooted : Table layout (loadRoot (take p kernel)) := { table with }
    have loaded : Table layout (loadTss (loadRoot (take p kernel))) :=
      { table with }
    have isIdle : kernel.curproc = 0 := idle.trans idleproc
    refine ⟨⟨taken, ?_⟩, ⟨rooted, ?_⟩, ⟨loaded, ?_⟩, loaded, ?_, ?_⟩
    · exact fun process => absurd isIdle process
    · exact fun process => absurd isIdle process
    · exact fun process => absurd isIdle process
    · exact fun _ => loaded_of_load (take p kernel)
    · exact fun same => absurd (same.trans idleproc.symm) process
  create {kernel} atRest room unborn live := by
    have inUse : 0 < kernel.nproc :=
      Nat.zero_lt_of_lt (atRest.1.below _ live)
    have other : kernel.curproc ≠ kernel.nproc :=
      (atRest.1.below _ live).ne
    constructor
    · intro taken kernel' filling
      refine ⟨atRest.1.filling filling inUse, ?_⟩
      intro process _
      exact (atRest.2.1 process).filling filling other
    · intro call kernel₁ kernel' ran alike
      have entered := entered_of_execAll room ran
      have current : kernel'.curproc = kernel.curproc := by
        rcases entered.built with ⟨heap, slot, rfl⟩
        exact alike.curproc
      refine ⟨(atRest.1.entered inUse entered).alike alike, ?_, ?_⟩
      · rw [current]
        intro process
        exact ((atRest.2.1 process).entered other entered).alike alike
      · rw [current, alike.image]
        intro idle
        rcases entered.built with ⟨heap, slot, rfl⟩
        exact atRest.2.2 idle

end Rules

theorem atRest_of_initial {layout : Layout} {kernel : KernelState}
    (initial : Initial layout kernel) :
    (tableContract layout).atRest kernel := by
  have good := good_start initial
  have below (p : Nat) (live : Live kernel p) : p < 1 :=
    initial.nproc ▸ good.fits.holds.lt_nproc live.1 live.2
  refine ⟨⟨good.fits.idleproc, initial.pid, initial.ptRoot, ?_, ?_, ?_, ?_⟩,
    ?_, ?_⟩
  · intro p process inTable
    rw [initial.nproc] at inTable
    omega
  · intro p process live
    have first := below p live
    omega
  · intro p live
    obtain rfl : p = 0 := by
      have first := below p live
      omega
    exact Or.inl initial.ptRoot
  · intro p live
    rw [initial.nproc]
    exact below p live
  · exact fun process => absurd initial.curproc process
  · exact fun _ => initial.cr3

theorem Started.table {layout : Layout} {machine : Machine}
    (started : Started layout machine) :
    ∃ phase, Good phase machine ∧ Upholds (tableContract layout) machine :=
  started.upholds (tableRules layout) fun _ _ _ _ booted =>
    atRest_of_initial (initial_of_main booted)

/-- The call by which a thread creates a process. -/
def callOp : Call → Op
  | .spawn desc => .spawn desc
  | .spawnuser desc => .spawnuser desc

theorem created_of_call {layout : Layout} {machine machine' : Machine}
    {call : Call}
    (called : step layout (.call (callOp call)) machine = some (.ok machine')) :
    machine.code = [] ∧ machine.kernel.nproc < maxProc ∧
      machine' =
        { machine with code := call.code layout machine.kernel.nproc } := by
  rcases step_call called with ⟨resting, allowed, rfl⟩
  cases call with
  | spawn desc => exact ⟨resting, of_decide_eq_true allowed, rfl⟩
  | spawnuser desc => exact ⟨resting, of_decide_eq_true allowed, rfl⟩

/-! ## Sample runs -/

theorem sampleLayout_bootable : Bootable sampleLayout :=
  ⟨sampleLayout_valid, by decide⟩

theorem sampleDesc_prioValid : PrioValid sampleDesc :=
  ⟨by decide, by decide⟩

theorem sample_main :
    ∃ kernel, main sampleLayout 0 (2 ^ 53) (fun _ => 0) = .ok kernel :=
  main_returns sampleLayout_bootable 0 _

/-- One process has been created. -/
theorem sample_call {call : Call} (prioValid : PrioValid call.desc) :
    ∃ kernel kernel', main sampleLayout 0 (2 ^ 53) (fun _ => 0) = .ok kernel ∧
      Reaches (step sampleLayout) (start kernel) (start kernel') ∧
      Entered sampleLayout (rootOf call) kernel kernel' := by
  rcases sample_main with ⟨kernel, booted⟩
  have room : kernel.nproc < maxProc := by
    rw [(initial_of_main booted).nproc]
    decide
  rcases spaces_call sampleLayout_valid
    (main_spaces sampleLayout_bootable booted) room prioValid with
    ⟨kernel', ran, _, _⟩
  have called : step sampleLayout (.call (callOp call)) (start kernel) =
      some (.ok { start kernel with
        code := call.code sampleLayout kernel.nproc }) := by
    cases call <;>
      simp [step, start, callOp, Op.allowed, Op.enter, Op.code, Call.code, room]
  rcases path_of_script sampleLayout (script_call sampleLayout call) ran 0
    (fun _ => []) with ⟨steps, path⟩
  exact ⟨kernel, kernel', booted, ⟨_, .cons called path⟩,
    entered_of_execAll room ran⟩

/-- The idle process looks for work, finds the first process and is about to
switch to it. -/
def firstDispatch : List Event :=
  .call .idlemain :: List.replicate 12 .run

theorem path_first {layout : Layout} {root : Image → Addr}
    {kernel kernel' : KernelState} (initial : Initial layout kernel)
    (entered : Entered layout root kernel kernel') :
    ∃ steps sent machine, Path (step layout) (start kernel') steps sent ∧
      (∀ entry ∈ steps, entry.2.thread = 0) ∧ sent.thread = 0 ∧
      switchOf sent = some (0, 1) ∧
      step layout .run sent = some (.ok machine) ∧
      machine.thread = 1 ∧ machine.code = [] ∧
      machine.kernel.curproc = 1 ∧ machine.kernel.idleproc = 0 ∧
      machine.kernel.interruptible = true ∧
      machine.kernel.image.slots = kernel'.image.slots ∧
      machine.kernel.image.kpml4 = kernel'.image.kpml4 ∧
      machine.kernel.image.upml4 = kernel'.image.upml4 := by
  rcases initial.boots with ⟨index, heap₀, boots⟩
  have shape : kernel =
      { procinit layout index (KernelState.zero heap₀) with
        image := kernel.image } := congrArg Machine.kernel boots
  rcases entered.built with ⟨heap, slot, rfl⟩
  generalize kernel.image = image at shape
  subst shape
  let kernel' : KernelState :=
    built { procinit layout index (KernelState.zero heap₀) with image } 1
      .runnable heap slot
  have followed : ∃ steps sent machine,
      follow (step layout) firstDispatch (start kernel') = some (steps, sent) ∧
      steps.map (fun entry => entry.2.thread) = List.replicate 13 0 ∧
      sent.thread = 0 ∧ switchOf sent = some (0, 1) ∧
      step layout .run sent = some (.ok machine) ∧
      machine.thread = 1 ∧ machine.code = [] ∧
      machine.kernel.curproc = 1 ∧ machine.kernel.idleproc = 0 ∧
      machine.kernel.interruptible = true ∧
      machine.kernel.image.slots = kernel'.image.slots ∧
      machine.kernel.image.kpml4 = kernel'.image.kpml4 ∧
      machine.kernel.image.upml4 = kernel'.image.upml4 :=
    ⟨_, _, _, rfl, rfl, rfl, rfl, rfl, rfl, rfl, rfl, rfl, rfl, rfl, rfl,
      rfl⟩
  rcases followed with ⟨steps, sent, machine, followed, threads, facts⟩
  refine ⟨steps, sent, machine, .of_follow followed, ?_, facts⟩
  intro entry member
  have listed := List.mem_map_of_mem (f := fun entry : Event × Machine =>
    entry.2.thread) member
  rw [threads] at listed
  exact List.eq_of_mem_replicate listed

/-- The first process runs. -/
theorem sample_running {call : Call} (prioValid : PrioValid call.desc) :
    ∃ machine, Started sampleLayout machine ∧ machine.thread = 1 ∧
      machine.code = [] ∧ machine.kernel.curproc = 1 ∧
      machine.kernel.idleproc = 0 ∧ machine.kernel.interruptible = true ∧
      (machine.kernel.slot 1).ptRoot = rootOf call machine.kernel.image := by
  rcases sample_call prioValid with
    ⟨kernel, kernel', booted, ⟨steps, path⟩, entered⟩
  have initial := initial_of_main booted
  rcases path_first initial entered with
    ⟨_, sent, machine, path', _, _, _, sends, thread, resting, current,
      idleproc, interruptible, slots, kpml4, upml4⟩
  have root : (machine.kernel.slot 1).ptRoot = rootOf call kernel'.image := by
    rw [KernelState.slot, slots, ← entered.ptRoot, initial.nproc]
    rfl
  refine ⟨machine,
    ⟨0, _, _, kernel, booted, _, path.append (path'.append (.single sends))⟩,
    thread, resting, current, idleproc, interruptible, root.trans ?_⟩
  cases call with
  | spawn desc => exact kpml4.symm
  | spawnuser desc => exact upml4.symm

/-! ## Process numbers -/

/--
In every run of the kernel the process in entry `i` has the number `i`, but for
the idle process, whose number is 1.  So no two of the others have the same.
-/
theorem pid_eq_index {layout : Layout} {machine : Machine}
    (started : Started layout machine) :
    (machine.kernel.slot 0).pid = 1 ∧
      (∀ i, 0 < i → i < machine.kernel.nproc →
        (machine.kernel.slot i).pid = i) ∧
      ∀ i j, 0 < i → i < machine.kernel.nproc →
        0 < j → j < machine.kernel.nproc →
          (machine.kernel.slot i).pid = (machine.kernel.slot j).pid →
            i = j := by
  rcases Started.table started with ⟨phase, good, upholds⟩
  have table := (upholds.always (tableRules layout) good).1
  refine ⟨table.idlePid, table.pid, ?_⟩
  intro i j process inTable process' inTable' same
  rw [table.pid i process inTable, table.pid j process' inTable'] at same
  exact same

theorem pid_eq_index_one_process :
    ∃ machine, Started sampleLayout machine ∧ 1 < machine.kernel.nproc ∧
      (machine.kernel.slot 1).pid = 1 := by
  rcases @sample_call (.spawn sampleDesc) sampleDesc_prioValid with
    ⟨kernel, kernel', booted, reaches, entered⟩
  have started : Started sampleLayout (start kernel') :=
    ⟨0, _, _, kernel, booted, reaches⟩
  have count : 1 < kernel'.nproc := by
    rw [entered.nproc, (initial_of_main booted).nproc]
    decide
  exact ⟨start kernel', started, count,
    (pid_eq_index started).2.1 1 (by decide) count⟩

/-- The idle process has the number of the first process. -/
theorem idle_pid_not_index :
    ∃ machine, Started sampleLayout machine ∧ 1 < machine.kernel.nproc ∧
      (machine.kernel.slot 0).pid ≠ 0 ∧
      (machine.kernel.slot 0).pid = (machine.kernel.slot 1).pid := by
  rcases @sample_call (.spawn sampleDesc) sampleDesc_prioValid with
    ⟨kernel, kernel', booted, reaches, entered⟩
  have initial := initial_of_main booted
  have idle : (kernel'.slot 0).pid = 1 := by
    rw [entered.older (by rw [initial.nproc]; decide)]
    exact initial.pid
  have first : (kernel'.slot 1).pid = 1 := by
    have pid := entered.pid
    rwa [initial.nproc] at pid
  refine ⟨start kernel', ⟨0, _, _, kernel, booted, reaches⟩, ?_, ?_,
    idle.trans first.symm⟩
  · show 1 < kernel'.nproc
    rw [entered.nproc, initial.nproc]
    decide
  · show (kernel'.slot 0).pid ≠ 0
    rw [idle]
    decide

end Rt64.Kernel.ProcessTable
