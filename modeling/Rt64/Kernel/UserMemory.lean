import Rt64.Kernel.HardwareContext

/-!
# Memory in a run

After `main`, nothing takes or returns a frame: a process lives on stacks of the
image, and the tables for its user stack are there already.  The two address
spaces change in one way only, by the stack that a `spawnuser` opens.  So in every
run user mode can reach the user section and the stacks of the user processes
created so far, and nothing else.
-/

namespace Rt64.Kernel.UserMemory

open Rt64.Lib.ByteMemory
open Rt64.Lib.LinkedChain
open Rt64.Lib.RadixTree
open Rt64.Lib.Transition
open Rt64.Include.Defs
open Rt64.Kernel.Kalloc
open Rt64.Kernel.Paging
open Rt64.Kernel.PageTree
open Rt64.Kernel.PagingRange
open Rt64.Kernel.PagingDeepcopy
open Rt64.Kernel.Process
open Rt64.Kernel.Spawn
open Rt64.Kernel.Isolation
open Rt64.Kernel.Processor
open Rt64.Kernel.Scheduler
open Rt64.Kernel.Threads
open Rt64.Kernel.Contracts
open Rt64.Kernel.Main
open Rt64.Kernel.ProcessTable

/-! ## Frames -/

/-- The memory tells which frames are free. -/
theorem invariant_unique {last : Addr} {heap : Heap} {free free' : List Addr}
    {allocated allocated' : Set Addr}
    (left : Invariant last heap free allocated)
    (right : Invariant last heap free' allocated') :
    free = free' ∧ allocated = allocated' := by
  obtain rfl := left.chain.unique right.chain
  refine ⟨rfl, ?_⟩
  have inside {allocated allocated' : Set Addr}
      (left : Invariant last heap free allocated)
      (right : Invariant last heap free allocated') {frame : Addr}
      (member : frame ∈ allocated) : frame ∈ allocated' := by
    rcases (right.frames frame).mp (left.isFrame_of_allocated member) with
      isFree | isAllocated
    · exact absurd member (left.disjoint frame isFree)
    · exact isAllocated
  ext frame
  exact ⟨inside left right, inside right left⟩

/-- Mapping a range whose tables are all there takes no frame. -/
theorem separate_of_pagingMap {last : Addr} {heap heap' : Heap}
    {free : List Addr} {allocated : Set Addr} {left right : Addr}
    {va pa sz flags : BitVec 64}
    (separate : Separate last heap free allocated left right)
    (none : missingTables heap.mem left va (pageCount sz) = ∅)
    (success : pagingMap left va pa sz flags heap = .ok heap') :
    Separate last heap' free allocated left right := by
  have invariant : Invariant last heap' free allocated := by
    rcases pagingMap_spec separate.wellFormedLeft.invariant
        separate.wellFormedLeft.tree success with ⟨new, rest, range⟩
    have taken := range.taken
    rw [none, Finset.card_empty, Nat.le_zero, List.length_eq_zero_iff] at taken
    subst taken
    have grown := range.grown.invariant
    rw [← range.grown.split.trans (List.nil_append rest)] at grown
    simpa using grown
  rcases separate.pagingMap success with ⟨free', allocated', separate', _⟩
  rcases invariant_unique invariant separate'.wellFormedLeft.invariant with
    ⟨rfl, rfl⟩
  exact separate'

/-! ## The contract -/

/-- A process that was created by `spawnuser`. -/
def IsUser (kernel : KernelState) (p : Nat) : Prop :=
  Live kernel p ∧ (kernel.slot p).ptRoot = kernel.image.upml4

/-- What is open to user mode. -/
def Opened (layout : Layout) (kernel : KernelState) (va : BitVec 64) : Prop :=
  UserSection layout va ∨
    ∃ p, IsUser kernel p ∧ Within (ustackAddr layout p) 4096 va

/-- The two address spaces, and which frames are free. -/
structure InOrder (layout : Layout) (free : List Addr) (allocated : Set Addr)
    (kernel : KernelState) : Prop where
  spaces : KernelSpaces layout kernel (Opened layout kernel)
  separate : Separate layout.last kernel.image.heap free allocated
    kernel.image.kpml4 kernel.image.upml4

def memoryContract (layout : Layout) (free : List Addr)
    (allocated : Set Addr) : Contract where
  always _ _ := True
  atRest := InOrder layout free allocated

section Rules

variable {layout : Layout} {free : List Addr} {allocated : Set Addr}
variable {kernel kernel' : KernelState}

theorem opened_congr (slots : kernel'.image.slots = kernel.image.slots)
    (upml4 : kernel'.image.upml4 = kernel.image.upml4)
    (live : ∀ p, Live kernel' p ↔ Live kernel p) (va : BitVec 64) :
    Opened layout kernel va ↔ Opened layout kernel' va := by
  simp only [Opened, IsUser, KernelState.slot, slots, upml4, live]

/-- A hand-over of the processor is none of the memory's business. -/
theorem InOrder.congr (inOrder : InOrder layout free allocated kernel)
    (heap : kernel'.image.heap = kernel.image.heap)
    (slots : kernel'.image.slots = kernel.image.slots)
    (kpml4 : kernel'.image.kpml4 = kernel.image.kpml4)
    (upml4 : kernel'.image.upml4 = kernel.image.upml4)
    (live : ∀ p, Live kernel' p ↔ Live kernel p) :
    InOrder layout free allocated kernel' := by
  constructor
  · have spaces := inOrder.spaces.of_iff (opened_congr slots upml4 live)
    unfold KernelSpaces
    rw [heap, kpml4, upml4]
    exact spaces
  · rw [heap, kpml4, upml4]
    exact inOrder.separate

theorem roots_ne (separate : Separate layout.last kernel.image.heap free
    allocated kernel.image.kpml4 kernel.image.upml4) :
    kernel.image.kpml4 ≠ kernel.image.upml4 := by
  intro same
  have apart := separate.apart kernel.image.kpml4 (root_mem 3 _)
  rw [same] at apart
  exact apart (root_mem 3 _)

/-- The user processes after a call. -/
theorem isUser_of_call {call : Call} (unborn : ¬ Live kernel kernel.nproc)
    (entered : Entered layout (rootOf call) kernel kernel') (p : Nat) :
    IsUser kernel' p ↔ IsUser kernel p ∨
      p = kernel.nproc ∧ rootOf call kernel'.image = kernel'.image.upml4 := by
  by_cases isNew : p = kernel.nproc
  · subst isNew
    have born : Live kernel' kernel.nproc := by
      rcases entered.built with ⟨heap, slot, rfl⟩
      simp [Live, built]
    simp only [IsUser, unborn, born, true_and, false_and, false_or,
      entered.ptRoot]
  · have live : Live kernel' p ↔ Live kernel p := by
      rcases entered.built with ⟨heap, slot, rfl⟩
      simp only [Live, built, Function.update_of_ne isNew]
    have upml4 : kernel'.image.upml4 = kernel.image.upml4 := by
      rcases entered.built with ⟨heap, slot, rfl⟩
      rfl
    simp only [IsUser, live, entered.older isNew, upml4, isNew, false_and,
      or_false]

/-- A call opens its stack. -/
theorem opened_of_call {call : Call}
    (separate : Separate layout.last kernel'.image.heap free allocated
      kernel'.image.kpml4 kernel'.image.upml4)
    (unborn : ¬ Live kernel kernel.nproc)
    (entered : Entered layout (rootOf call) kernel kernel') (va : BitVec 64) :
    (Opened layout kernel va ∨ call.opens layout kernel.nproc va) ↔
      Opened layout kernel' va := by
  have users := isUser_of_call unborn entered
  have split : (∃ p, IsUser kernel' p ∧ Within (ustackAddr layout p) 4096 va) ↔
      (∃ p, IsUser kernel p ∧ Within (ustackAddr layout p) 4096 va) ∨
        call.opens layout kernel.nproc va := by
    simp only [users, or_and_right, exists_or]
    refine or_congr_right ?_
    cases call with
    | spawn desc =>
        refine iff_of_false ?_ not_false
        rintro ⟨p, ⟨_, same⟩, _⟩
        exact roots_ne separate same
    | spawnuser desc =>
        constructor
        · rintro ⟨p, ⟨rfl, _⟩, inside⟩
          exact inside
        · exact fun inside => ⟨kernel.nproc, ⟨rfl, rfl⟩, inside⟩
  rw [Opened, Opened, split, or_assoc]

/-- A call takes no frame. -/
theorem separate_of_call (valid : Valid layout) {call : Call}
    {user : BitVec 64 → Prop} (spaces : KernelSpaces layout kernel user)
    (separate : Separate layout.last kernel.image.heap free allocated
      kernel.image.kpml4 kernel.image.upml4)
    (room : kernel.nproc < maxProc) (prioValid : PrioValid call.desc)
    (ran : execAll kernel (call.code layout kernel.nproc) = .ok kernel') :
    Separate layout.last kernel'.image.heap free allocated
      kernel'.image.kpml4 kernel'.image.upml4 := by
  have outsideCtx {address : Addr} := @not_within_ctx layout valid _ room address
  have outsideName {address : Addr} :=
    @not_within_name layout valid _ room address
  have outsideStack {address : Addr} :=
    @not_within_kstack layout valid _ room address
  cases call with
  | spawn desc =>
      have same := ran.symm.trans (spawn_eq layout prioValid kernel)
      rcases Except.ok.inj same with rfl
      exact (separate_congr separate fun address above =>
        spawnMem_outside valid room desc kernel.mem (outsideCtx above)
          (outsideName above) (outsideStack above)).1
  | spawnuser desc =>
      rcases mapped_of_spawnuser layout prioValid room ran with ⟨heap, mapped⟩
      have same := ran.symm.trans (spawnuser_eq layout prioValid room mapped)
      rcases Except.ok.inj same with rfl
      have entry : ∀ address, layout.last.toNat ≤ address.toNat →
          spawnuserEntryMem layout desc kernel.nproc kernel.mem address =
            kernel.mem address := fun address above =>
        spawnuserEntryMem_outside room desc kernel.mem valid (outsideCtx above)
          (outsideName above) (outsideStack above)
      have entered := Spaces.congr spaces entry
      have inside := inRange_ustack_iff valid room
      have none := entered.missingTables_eq_empty (upper_ustack valid room)
        fun va inRange => inRange_directMap_of_ustack valid room
          entered.last_le ((inside va).mp inRange)
      have separate' := separate_of_pagingMap
        (separate_congr separate entry).1.symm none mapped
      exact (separate_congr separate'.symm fun address above =>
        spawnuserFrameMem_outside desc heap.mem (outsideStack above)
          (not_within_ustack valid room above)).1

theorem memoryRules (valid : Valid layout) (free : List Addr)
    (allocated : Set Addr) :
    Rules layout (memoryContract layout free allocated) where
  alikeAlways _ _ := trivial
  alikeRest alike inOrder := inOrder.congr (congrArg Image.heap alike.image)
    (congrArg Image.slots alike.image) (congrArg Image.kpml4 alike.image)
    (congrArg Image.upml4 alike.image) alike.live
  resting _ := trivial
  hand inOrder _ := ⟨trivial, trivial,
    inOrder.congr rfl rfl rfl rfl fun _ => Iff.rfl⟩
  send inOrder _ _ _ := ⟨trivial, trivial, trivial,
    inOrder.congr rfl rfl rfl rfl fun _ => Iff.rfl⟩
  create {kernel} inOrder room unborn _ := by
    refine ⟨fun _ _ _ => trivial, ?_⟩
    intro call kernel₁ kernel' ran alike
    have prioValid := prioValid_of_execAll ran
    have entered := entered_of_execAll room ran
    have separate := separate_of_call valid inOrder.spaces inOrder.separate room
      prioValid ran
    have created : InOrder layout free allocated kernel₁ := by
      refine ⟨?_, separate⟩
      rcases spaces_call valid inOrder.spaces room prioValid with
        ⟨kernel₂, ran', _, opened⟩
      rw [ran] at ran'
      rcases Except.ok.inj ran' with rfl
      exact opened.of_iff (opened_of_call separate unborn entered)
    exact created.congr (congrArg Image.heap alike.image)
      (congrArg Image.slots alike.image) (congrArg Image.kpml4 alike.image)
      (congrArg Image.upml4 alike.image) alike.live

end Rules

/-! ## Runs of the kernel -/

section Runs

variable {layout : Layout} {index : Byte} {fuel : Nat} {mem : Memory}
variable {kernel : KernelState} {machine : Machine}
variable {steps : List (Event × Machine)}

/-- `main` leaves no user process. -/
theorem inOrder_of_main (bootable : Bootable layout)
    (booted : main layout index fuel mem = .ok kernel) :
    ∃ free allocated, InOrder layout free allocated kernel := by
  have spaces := main_spaces bootable booted
  have initial := initial_of_main booted
  rcases spaces.separate with ⟨free, allocated, separate⟩
  refine ⟨free, allocated, spaces.of_iff fun va => (or_iff_left ?_).symm,
    separate⟩
  rintro ⟨p, ⟨live, root⟩, _⟩
  have only : p < kernel.nproc :=
    (good_start initial).fits.holds.lt_nproc live.1 live.2
  rw [initial.nproc, Nat.lt_one_iff] at only
  rw [only, initial.ptRoot] at root
  exact roots_ne separate root

theorem inOrder_of_path (bootable : Bootable layout)
    (booted : main layout index fuel mem = .ok kernel)
    (path : Path (step layout) (start kernel) steps machine)
    (resting : machine.code = []) :
    ∃ free allocated, InOrder layout free allocated kernel ∧
      InOrder layout free allocated machine.kernel := by
  rcases inOrder_of_main bootable booted with ⟨free, allocated, inOrder⟩
  refine ⟨free, allocated, inOrder, ?_⟩
  rcases Upholds.path (memoryRules bootable.valid free allocated)
      (good_start (initial_of_main booted))
      ⟨inOrder, fun _ _ member => nomatch member⟩ path with
    ⟨phase, good, upholds⟩
  have atRest := upholds.ok
  rw [resting] at atRest
  exact atRest

end Runs

/--
After `main` the kernel takes and returns no frame: in every run, whenever the
thread on the processor is in no kernel function, the free list has the same
frames in the same order, and the frames in use are the same.
-/
theorem frames_fixed_in_run {layout : Layout} (bootable : Bootable layout)
    {index : Byte} {fuel : Nat} {mem : Memory} {kernel : KernelState}
    {machine : Machine} {steps : List (Event × Machine)}
    (booted : main layout index fuel mem = .ok kernel)
    (path : Path (step layout) (start kernel) steps machine)
    (resting : machine.code = []) :
    machine.kernel.image.heap.nfreepages = kernel.image.heap.nfreepages ∧
      ∃ free allocated,
        Invariant layout.last kernel.image.heap free allocated ∧
        Invariant layout.last machine.kernel.image.heap free allocated := by
  rcases inOrder_of_path bootable booted path resting with
    ⟨free, allocated, before, after⟩
  have invariant := before.separate.wellFormedLeft.invariant
  have invariant' := after.separate.wellFormedLeft.invariant
  exact ⟨invariant'.count.trans invariant.count.symm, free, allocated,
    invariant, invariant'⟩

/-- A user process has been created. -/
theorem frames_fixed_in_run_first_process :
    ∃ kernel kernel', main sampleLayout 0 (2 ^ 53) (fun _ => 0) = .ok kernel ∧
      Reaches (step sampleLayout) (start kernel) (start kernel') ∧
      kernel'.nproc = 2 ∧
      kernel'.image.heap.nfreepages = kernel.image.heap.nfreepages := by
  rcases @sample_call (.spawnuser sampleDesc) sampleDesc_prioValid with
    ⟨kernel, kernel', booted, ⟨steps, path⟩, entered⟩
  have two : kernel'.nproc = 2 := by
    rw [entered.nproc, (initial_of_main booted).nproc]
  exact ⟨kernel, kernel', booted, ⟨steps, path⟩, two,
    (frames_fixed_in_run sampleLayout_bootable booted path rfl).1⟩

/-! ## What a process can reach -/

section Reach

variable {last : Addr} {heap : Heap} {kpml4 upml4 : Addr}
variable {user : BitVec 64 → Prop} {va : BitVec 64}
variable (spaces : Spaces last heap kpml4 upml4 user)
include spaces

theorem userAccessible_iff (canonical : Canonical va) :
    UserAccessible heap.mem upml4 va ↔ user va := by
  constructor
  · rintro ⟨translation, found, allowed⟩
    by_contra isClosed
    rw [spaces.translate_userClosed canonical isClosed] at found
    exact spaces.not_userAccessible canonical ⟨translation, found, allowed⟩
  · intro isOpen
    refine ⟨_, spaces.translate_userOpen isOpen, ?_⟩
    intro flag member
    simp only [userTranslation, List.mem_cons, List.not_mem_nil,
      or_false] at member
    rcases member with rfl | rfl | rfl | rfl <;> decide

/-- Where the kernel's tables lead. -/
theorem kernel_target (canonical : Canonical va) (target : Nat) :
    (translate heap.mem 4 kpml4 va).map Translation.target = some target ↔
      (∃ x < maxPhysMem.toNat, va = kernbase + BitVec.ofNat 64 x ∧
        target = x) ∨
      ∃ x < (16 * pgSz2M).toNat, va = devbase + BitVec.ofNat 64 x ∧
        target = 0xFE000000 + x := by
  have translates := spaces.kernel_translates canonical
  rw [Option.map_eq_some_iff]
  constructor
  · rintro ⟨translation, found, rfl⟩
    rcases (translates translation).mp found with
      ⟨x, small, rfl, rfl⟩ | ⟨x, small, rfl, rfl⟩
    · exact Or.inl ⟨x, small, rfl, rfl⟩
    · exact Or.inr ⟨x, small, rfl, rfl⟩
  · rintro (⟨x, small, rfl, rfl⟩ | ⟨x, small, rfl, rfl⟩)
    · exact ⟨_, (translates _).mpr (Or.inl ⟨_, small, rfl, rfl⟩), rfl⟩
    · exact ⟨_, (translates _).mpr (Or.inr ⟨_, small, rfl, rfl⟩), rfl⟩

end Reach

theorem cr3_of_started {layout : Layout} {machine : Machine}
    (started : Started layout machine) (resting : machine.code = []) :
    let kernel := machine.kernel
    let root := (kernel.slot kernel.curproc).ptRoot
    kernel.image.cr3 = v2p root ∧ Live kernel kernel.curproc ∧
      (root = kernel.image.kpml4 ∨ root = kernel.image.upml4) := by
  intro kernel root
  rcases Started.table started with ⟨phase, good, upholds⟩
  have atRest := upholds.ok
  rw [resting] at atRest
  rcases atRest with ⟨table, loaded, idle⟩
  have live : Live kernel kernel.curproc := good.fits.holds.current_used
  refine ⟨?_, live, table.ptRoot _ live⟩
  by_cases isIdle : kernel.curproc = 0
  · have rooted := table.idleRoot
    rw [← isIdle] at rooted
    exact (idle isIdle).trans (congrArg v2p rooted.symm)
  · exact (loaded isIdle).cr3

/--
In every run, whenever code of a thread executes, the page table register holds
the tables of `curproc`.  They lead to all of physical memory and to the devices,
the same places for every process, so that traps find the kernel.  User mode can
reach the user section and the stacks of the user processes created so far if
`curproc` is one of these, and nothing otherwise.
-/
theorem address_space_in_run {layout : Layout} (bootable : Bootable layout)
    {machine : Machine} (started : Started layout machine)
    (resting : machine.code = []) :
    let kernel := machine.kernel
    let root := (kernel.slot kernel.curproc).ptRoot
    kernel.image.cr3 = v2p root ∧
      (∀ va, Canonical va → ∀ target,
        (translate kernel.mem 4 root va).map Translation.target = some target ↔
          (∃ x < maxPhysMem.toNat, va = kernbase + BitVec.ofNat 64 x ∧
            target = x) ∨
          ∃ x < (16 * pgSz2M).toNat, va = devbase + BitVec.ofNat 64 x ∧
            target = 0xFE000000 + x) ∧
      ∀ va, Canonical va →
        (UserAccessible kernel.mem root va ↔
          IsUser kernel kernel.curproc ∧ Opened layout kernel va) := by
  intro kernel root
  have current := cr3_of_started started resting
  have live : Live kernel kernel.curproc := current.2.1
  have isRoot : root = kernel.image.kpml4 ∨ root = kernel.image.upml4 :=
    current.2.2
  rcases started with ⟨index, fuel, mem, first, booted, steps, path⟩
  rcases inOrder_of_path bootable booted path resting with
    ⟨free, allocated, _, inOrder⟩
  have spaces : Spaces layout.last kernel.image.heap kernel.image.kpml4
      kernel.image.upml4 (Opened layout kernel) := inOrder.spaces
  refine ⟨current.1, ?_, ?_⟩
  · intro va canonical target
    rw [← kernel_target spaces canonical]
    rcases isRoot with isKernel | isUser
    · rw [isKernel]
      rfl
    · rw [isUser]
      exact iff_of_eq (congrArg (· = _) (spaces.same_target canonical))
  · intro va canonical
    rcases isRoot with isKernel | isUser
    · rw [isKernel]
      refine iff_of_false (spaces.not_userAccessible canonical) ?_
      rintro ⟨⟨_, same⟩, _⟩
      exact roots_ne inOrder.separate (isKernel.symm.trans same)
    · rw [isUser]
      refine (userAccessible_iff spaces canonical).trans ?_
      exact (and_iff_right ⟨live, isUser⟩).symm

/-- A user process runs: its stack is open, and the register that acknowledges an
interrupt is where it should be. -/
theorem address_space_in_run_user_process :
    ∃ machine, Started sampleLayout machine ∧
      machine.kernel.curproc = 1 ∧
      UserAccessible machine.kernel.mem (machine.kernel.slot 1).ptRoot
        0xFFFFFFFF8010B123 ∧
      (translate machine.kernel.mem 4 (machine.kernel.slot 1).ptRoot
        (devbase + 0xE000B0)).map Translation.target = some 0xFEE000B0 := by
  rcases @sample_running (.spawnuser sampleDesc) sampleDesc_prioValid with
    ⟨machine, started, _, resting, current, _, _, root⟩
  have live : Live machine.kernel 1 := by
    have isLive := (cr3_of_started started resting).2.1
    rwa [current] at isLive
  have reached := address_space_in_run sampleLayout_bootable started resting
  dsimp only at reached
  rw [current] at reached
  rcases reached with ⟨_, targets, accessible⟩
  refine ⟨machine, started, current, ?_, ?_⟩
  · rw [accessible _ (Or.inr (by decide))]
    exact ⟨⟨live, root⟩, Or.inr ⟨1, ⟨live, root⟩, by decide⟩⟩
  · rw [targets _ (Or.inr (by decide))]
    exact Or.inr ⟨0xE000B0, by decide, rfl, rfl⟩

end Rt64.Kernel.UserMemory
