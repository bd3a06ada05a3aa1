import Rt64.Kernel.Contracts

/-!
# The kernel from `main` on

`main` sets up the allocator and the kernel's page tables, makes the boot thread
the idle process, and sets up the users' page tables.  `acpiinit`, `lapicinit`
and `trapinit`, which it calls in between, leave these variables alone.  What it
does from then on, creating processes and entering `idlemain`, is a run of the
machine.
-/

namespace Rt64.Kernel.Main

open Rt64.Lib.ByteMemory
open Rt64.Lib.Transition
open Rt64.Include.Defs
open Rt64.Klib.String
open Rt64.Kernel.Kalloc
open Rt64.Kernel.Paging
open Rt64.Kernel.PageTree
open Rt64.Kernel.PagingRange
open Rt64.Kernel.Process
open Rt64.Kernel.Spawn
open Rt64.Kernel.Isolation
open Rt64.Kernel.Processor
open Rt64.Kernel.Rounds
open Rt64.Kernel.Scheduler
open Rt64.Kernel.Threads
open Rt64.Kernel.Contracts

/-- `main` on the processor `index`, up to the first `spawn`. -/
def main (layout : Layout) (index : Byte) (fuel : Nat) (mem : Memory) :
    Except Halt KernelState := do
  let heap ← kallocinit layout.last fuel { mem, nfreepages := 0, freelist := 0 }
  let (kpml4, heap) ← paginginitBsp heap
  let zero := KernelState.zero heap
  let kernel := procinit layout index
    { zero with image := { zero.image with kpml4, cr3 := v2p kpml4 } }
  let (upml4, heap) ← uvminit kernel.image.kpml4 layout.ubegin layout.uend
    kernel.image.heap
  return { kernel with image := { kernel.image with heap, upml4 } }

/-- The boot thread goes on after `uvminit`. -/
def start (kernel : KernelState) : Machine where
  kernel := kernel
  thread := 0
  code := []
  saved _ := []

/-- The states of the machine in any run of the kernel. -/
def Started (layout : Layout) (machine : Machine) : Prop :=
  ∃ index fuel mem kernel, main layout index fuel mem = .ok kernel ∧
    Reaches (step layout) (start kernel) machine

/-- What `main` leaves behind for the first run of the machine. -/
structure Initial (layout : Layout) (kernel : KernelState) : Prop where
  boots : ∃ index heap, start kernel = boot layout index heap kernel.image
  nproc : kernel.nproc = 1
  curproc : kernel.curproc = 0
  pid : (kernel.slot 0).pid = 1
  ptRoot : (kernel.slot 0).ptRoot = kernel.image.kpml4
  cr3 : kernel.image.cr3 = v2p kernel.image.kpml4

theorem initial_of_main {layout : Layout} {index : Byte} {fuel : Nat}
    {mem : Memory} {kernel : KernelState}
    (success : main layout index fuel mem = .ok kernel) :
    Initial layout kernel := by
  rw [main, bind_eq_ok] at success
  rcases success with ⟨heap, _, success⟩
  rw [bind_eq_ok] at success
  rcases success with ⟨⟨kpml4, heap₁⟩, _, success⟩
  dsimp only at success
  rw [bind_eq_ok] at success
  rcases success with ⟨⟨upml4, heap₂⟩, _, success⟩
  rcases Except.ok.inj success with rfl
  exact ⟨⟨index, heap₁, rfl⟩, rfl, rfl, rfl, rfl, rfl⟩

section Started

variable {layout : Layout} {machine : Machine}

theorem good_start {kernel : KernelState} (initial : Initial layout kernel) :
    Good (.own 0) (start kernel) := by
  rcases initial.boots with ⟨index, heap, boots⟩
  rw [boots]
  exact good_boot layout index heap kernel.image

/-- A run of the kernel is a run of the scheduler's machine. -/
theorem Started.reachable (started : Started layout machine) :
    Processor.Reachable layout machine := by
  rcases started with ⟨index, fuel, mem, kernel, booted, reaches⟩
  rcases (initial_of_main booted).boots with ⟨index', heap, boots⟩
  rw [boots] at reaches
  exact ⟨index', heap, kernel.image, reaches⟩

/-- The idle process is in the table. -/
theorem Started.nproc_ne_zero (started : Started layout machine) :
    machine.kernel.nproc ≠ 0 := by
  rcases good_of_reachable started.reachable with ⟨phase, good⟩
  exact Nat.ne_zero_of_lt good.fits.holds.cursor

/-- A contract that `main` establishes holds in every run of the kernel. -/
theorem Started.upholds {contract : Contract} (rules : Rules layout contract)
    (first : ∀ index fuel mem kernel, main layout index fuel mem = .ok kernel →
      contract.atRest kernel)
    (started : Started layout machine) :
    ∃ phase, Good phase machine ∧ Upholds contract machine := by
  rcases started with ⟨index, fuel, mem, kernel, booted, steps, path⟩
  refine Upholds.path rules (good_start (initial_of_main booted)) ?_ path
  exact ⟨first index fuel mem kernel booted, fun _ _ member => nomatch member⟩

theorem Started.path {machine' : Machine} {steps : List (Event × Machine)}
    (started : Started layout machine)
    (path : Path (step layout) machine steps machine') :
    Started layout machine' := by
  rcases started with ⟨index, fuel, mem, kernel, booted, reaches⟩
  exact ⟨index, fuel, mem, kernel, booted, reaches.trans ⟨steps, path⟩⟩

end Started

/-! ## The address spaces -/

/-- `procinit` writes to the table only. -/
theorem procinit_outside {layout : Layout} (valid : Valid layout)
    {index : Byte} {kernel : KernelState} (first : kernel.nproc = 0)
    {address : Addr} (above : layout.last.toNat ≤ address.toNat) :
    (procinit layout index kernel).mem address = kernel.mem address := by
  have outside := not_within_name valid (show 0 < maxProc by decide) above
  have other (i : Nat) (small : i < 16) :
      address ≠ nameAddr layout 0 + BitVec.ofNat 64 i := by
    rintro rfl
    exact outside (within_offset _ small (by omega))
  simp only [procinit, KernelState.mem, first]
  refine (Function.update_of_ne (other 6 (by decide)) _ _).trans ?_
  refine (Function.update_of_ne (other 5 (by decide)) _ _).trans ?_
  exact safestrcpy_outside _ _ _ _ 16 (by decide) outside

/-- The image is as the linker script arranges it and leaves room for the two
address spaces. -/
structure Bootable (layout : Layout) : Prop where
  valid : Valid layout
  room : 56 ≤ frameCount layout.last

/-- `main` gets through to the first `spawn`, with the two address spaces. -/
theorem main_spec {layout : Layout} (bootable : Bootable layout)
    {index : Byte} {fuel : Nat} {mem : Memory} {heap : Heap}
    (allocator : kallocinit layout.last fuel
      { mem, nfreepages := 0, freelist := 0 } = .ok heap) :
    ∃ kernel, main layout index fuel mem = .ok kernel ∧
      KernelSpaces layout kernel (UserSection layout) := by
  have valid := bootable.valid
  rcases kallocinit_spec allocator with ⟨free, invariant, count⟩
  have inMemory : kernbase ≤ layout.last := by
    rcases valid.procsPlaced with ⟨low, fits⟩
    have range := layout.last.isLt
    bv_omega
  rcases paginginitBsp_spec inMemory invariant (count ▸ bootable.room) with
    ⟨kpml4, heap₁, rest, allocated, built, wellFormed, plain, leaves, room⟩
  let zero := KernelState.zero heap₁
  let kernel := procinit layout index
    { zero with image := { zero.image with kpml4, cr3 := v2p kpml4 } }
  have agree : ∀ address, layout.last.toNat ≤ address.toNat →
      kernel.mem address = heap₁.mem address :=
    fun address above => procinit_outside valid rfl above
  rcases wellFormed_congr wellFormed agree with
    ⟨sameTables, wellFormed', sameResolve⟩
  have plain' : Plain kernel.mem kpml4 := by
    intro va
    rw [sameResolve]
    exact plain va
  have leaves' : ∀ va, Canonical va →
      leaf kernel.mem kpml4 va = kernelLeaf va := by
    intro va canonical
    rw [leaf, sameResolve]
    exact leaves va canonical
  rcases uvminit_spec valid wellFormed' plain' leaves'
      (sameTables.symm ▸ room) with
    ⟨upml4, heap₂, copied, spaces⟩
  refine ⟨{ kernel with image := { kernel.image with heap := heap₂, upml4 } },
    ?_, spaces⟩
  rw [main, allocator, ok_bind, built, ok_bind]
  dsimp only
  exact (congrArg (· >>= _) copied).trans (ok_bind _ _)

theorem main_spaces {layout : Layout} (bootable : Bootable layout)
    {index : Byte} {fuel : Nat} {mem : Memory} {kernel : KernelState}
    (success : main layout index fuel mem = .ok kernel) :
    KernelSpaces layout kernel (UserSection layout) := by
  have booted := success
  rw [main, bind_eq_ok] at success
  rcases success with ⟨heap, allocator, _⟩
  rcases @main_spec _ bootable index _ _ _ allocator with
    ⟨kernel', booted', spaces⟩
  rw [booted] at booted'
  rcases Except.ok.inj booted' with rfl
  exact spaces

theorem main_returns {layout : Layout} (bootable : Bootable layout)
    (index : Byte) (mem : Memory) :
    ∃ kernel, main layout index (2 ^ 53) mem = .ok kernel := by
  have nonzero : layout.last ≠ 0 := by
    rcases bootable.valid.procsPlaced with ⟨low, fits⟩
    rintro zero
    rw [zero] at fits
    exact absurd fits (by simp)
  rcases kallocinit_returns layout.last mem nonzero with ⟨heap, allocator⟩
  rcases @main_spec _ bootable index _ _ _ allocator with ⟨kernel, booted, _⟩
  exact ⟨kernel, booted⟩

/-! ## The address spaces in a run -/

/-- Whenever the thread on the processor is in no kernel function, the two
address spaces are in order. -/
def spacesContract (layout : Layout) : Contract where
  always _ _ := True
  atRest kernel := ∃ user, KernelSpaces layout kernel user

theorem spaces_of_image {layout : Layout} {kernel kernel' : KernelState}
    (heap : kernel'.image.heap = kernel.image.heap)
    (kpml4 : kernel'.image.kpml4 = kernel.image.kpml4)
    (upml4 : kernel'.image.upml4 = kernel.image.upml4)
    (atRest : (spacesContract layout).atRest kernel) :
    (spacesContract layout).atRest kernel' := by
  rcases atRest with ⟨user, spaces⟩
  refine ⟨user, ?_⟩
  unfold KernelSpaces at spaces ⊢
  rw [heap, kpml4, upml4]
  exact spaces

/-- A call that succeeds has passed the check of its priority. -/
theorem prioValid_of_execAll {layout : Layout} {call : Call} {p : Nat}
    {kernel kernel' : KernelState}
    (success : execAll kernel (call.code layout p) = .ok kernel') :
    PrioValid call.desc := by
  have checked : ∃ site rest, call.code layout p =
      checkPrio site call.desc :: rest := by
    cases call with
    | spawn desc => exact ⟨.spawn, _, rfl⟩
    | spawnuser desc => exact ⟨.spawnuser, _, rfl⟩
  rcases checked with ⟨site, rest, shape⟩
  rw [shape, execAll, List.foldlM_cons, bind_eq_ok] at success
  rcases success with ⟨middle, first, _⟩
  rw [bind_eq_ok] at first
  rcases first with ⟨result, passed, _⟩
  rw [checkPrio, Stmt.exec, assert_bind_eq_ok] at passed
  have passes : minprio ≤ call.desc.prio ∧ call.desc.prio ≤ maxprio :=
    of_decide_eq_true passed.1
  exact passes

theorem spacesRules {layout : Layout} (valid : Valid layout) :
    Rules layout (spacesContract layout) where
  alikeAlways _ _ := trivial
  alikeRest alike := spaces_of_image (congrArg Image.heap alike.image)
    (congrArg Image.kpml4 alike.image) (congrArg Image.upml4 alike.image)
  resting _ := trivial
  hand atRest _ := ⟨trivial, trivial, spaces_of_image rfl rfl rfl atRest⟩
  send atRest _ _ _ := ⟨trivial, trivial, trivial,
    spaces_of_image rfl rfl rfl atRest⟩
  create {kernel} atRest room _ _ := by
    refine ⟨fun _ _ _ => trivial, ?_⟩
    intro call kernel₁ kernel' ran alike
    rcases atRest with ⟨user, spaces⟩
    have created : ∃ user, KernelSpaces layout kernel₁ user := by
      rcases spaces_call valid spaces room (prioValid_of_execAll ran) with
        ⟨kernel₂, ran', _, opened⟩
      rw [ran] at ran'
      rcases Except.ok.inj ran' with rfl
      exact ⟨_, opened⟩
    exact spaces_of_image (congrArg Image.heap alike.image)
      (congrArg Image.kpml4 alike.image) (congrArg Image.upml4 alike.image)
      created

theorem Started.spaces {layout : Layout} (bootable : Bootable layout)
    {machine : Machine} (started : Started layout machine)
    (resting : machine.code = []) :
    ∃ user, KernelSpaces layout machine.kernel user := by
  rcases started.upholds (spacesRules bootable.valid)
      (fun _ _ _ _ booted => ⟨_, main_spaces bootable booted⟩) with
    ⟨_, _, upholds⟩
  have atRest := upholds.ok
  rw [resting] at atRest
  exact atRest

end Rt64.Kernel.Main
