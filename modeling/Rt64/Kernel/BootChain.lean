import Rt64.Boot.BootHeader
import Rt64.Kernel.Entry
import Rt64.Kernel.UserMemory

/-!
# From the disk to the first process

The boot loader puts the image at its load address, the entry code maps it at its
link address, and `main` switches to page tables of its own.  Along the whole way
a link address leads to the same byte of the image, and the byte is the one on the
disk.
-/

namespace Rt64.Kernel.BootChain

open Rt64.Lib.ByteMemory
open Rt64.Include.Defs
open Rt64.Klib.String
open Rt64.Boot
open Rt64.Boot.Bootmain
open Rt64.Kernel.Kalloc
open Rt64.Kernel.Paging
open Rt64.Kernel.PageTree
open Rt64.Kernel.PagingRange
open Rt64.Kernel.PagingDeepcopy
open Rt64.Kernel.Process
open Rt64.Kernel.Spawn
open Rt64.Kernel.Isolation
open Rt64.Kernel.Main
open Rt64.Kernel.UserMemory
open Rt64.Kernel.Entry

/-! ## What `main` leaves alone -/

/-- `kallocinit` writes to the frames only. -/
theorem kallocinitLoop_keeps {first it : Addr} {fuel : Nat} {heap heap' : Heap}
    (success : kallocinitLoop first it fuel heap = .ok heap') {address : Addr}
    (below : address.toNat < first.toNat) :
    heap'.mem address = heap.mem address := by
  induction fuel generalizing it heap with
  | zero => cases success
  | succ fuel induction =>
      rw [kallocinitLoop] at success
      split at success
      · rename_i above
        rw [bind_eq_ok] at success
        rcases success with ⟨middle, freed, later⟩
        rw [kfree, assert_bind_eq_ok] at freed
        rcases freed with ⟨isAligned, written⟩
        rcases Except.ok.inj written with rfl
        rw [aligned_pgSz4K_iff] at isAligned
        rw [induction later]
        apply store64_outside
        -- the word of a frame does not run over the end of the address space
        intro inside
        rw [Within] at inside
        bv_omega
      · rcases Except.ok.inj success with rfl
        rfl

/-- `paging_map` keeps a well-formed tree and what is below the frames. -/
theorem pagingMap_keeps {last : Addr} {heap heap' : Heap} {free : List Addr}
    {allocated : Set Addr} {pml4 : Addr} {va pa sz flags : BitVec 64}
    (wellFormed : WellFormed last heap free allocated pml4)
    (success : pagingMap pml4 va pa sz flags heap = .ok heap') :
    (∃ rest allocated', WellFormed last heap' rest allocated' pml4) ∧
      ∀ address : Addr, address.toNat < last.toNat →
        heap'.mem address = heap.mem address := by
  rcases pagingMap_spec wellFormed.invariant wellFormed.tree success with
    ⟨new, rest, range⟩
  exact ⟨⟨rest, _, wellFormed.inMemory, range.grown.invariant,
    range.grown.tree wellFormed.tree range.gains⟩,
    fun address below => kept_below_last range.grown below⟩

theorem paginginitBsp_keeps {last : Addr} {heap heap' : Heap}
    {free : List Addr} {allocated : Set Addr} {kpml4 : Addr}
    (inMemory : kernbase ≤ last)
    (invariant : Invariant last heap free allocated)
    (success : paginginitBsp heap = .ok (kpml4, heap')) {address : Addr}
    (below : address.toNat < last.toNat) :
    heap'.mem address = heap.mem address := by
  rw [paginginitBsp, bind_eq_ok] at success
  rcases success with ⟨⟨root, heap₀⟩, taken, success⟩
  dsimp only at success
  rw [bind_eq_ok] at success
  rcases success with ⟨heap₁, direct, success⟩
  rw [bind_eq_ok] at success
  rcases success with ⟨heap₂, devices, result⟩
  rcases Prod.mk.inj (Except.ok.inj result) with ⟨rfl, rfl⟩
  rcases Grown.alloc invariant (fun _ member => absurd member List.not_mem_nil)
    taken with ⟨_, grown, _⟩
  rcases wellFormed_of_kalloc inMemory invariant taken with
    ⟨_, _, wellFormed, _⟩
  rcases pagingMap_keeps wellFormed direct with ⟨⟨_, _, wellFormed₁⟩, same₁⟩
  rcases pagingMap_keeps wellFormed₁ devices with ⟨_, same₂⟩
  rw [same₂ address below, same₁ address below, kept_below_last grown below]

theorem uvminit_keeps {last ubegin uend : Addr} {heap heap' : Heap}
    {free : List Addr} {allocated : Set Addr} {kpml4 upml4 : Addr}
    (wellFormed : WellFormed last heap free allocated kpml4)
    (enough : (tables heap.mem 4 kpml4).length ≤ free.length)
    (success : uvminit kpml4 ubegin uend heap = .ok (upml4, heap'))
    {address : Addr} (below : address.toNat < last.toNat) :
    heap'.mem address = heap.mem address := by
  rw [uvminit, assert_bind_eq_ok, bind_eq_ok] at success
  rcases success with ⟨_, ⟨root, copy⟩, copies, success⟩
  dsimp only at success
  rw [bind_eq_ok] at success
  rcases success with ⟨opened, mapped, result⟩
  rcases Prod.mk.inj (Except.ok.inj result) with ⟨rfl, rfl⟩
  rcases ptDeepcopyLevel_copies last 3 (by decide) wellFormed.invariant
      wellFormed.tree enough with
    ⟨root', copy', new, rest, again, copied⟩
  rw [ptRootDeepcopy, again] at copies
  rcases Prod.mk.inj (Except.ok.inj copies) with ⟨rfl, rfl⟩
  rcases copied.separate wellFormed with ⟨separate, _⟩
  rcases pagingMap_keeps separate.wellFormedRight mapped with ⟨_, same⟩
  rw [same address below, kept_below_last copied.grown below]

/-- `procinit` writes to the process table only. -/
theorem procinit_keeps {layout : Layout} {index : Byte} {kernel : KernelState}
    (first : kernel.nproc = 0) {address : Addr}
    (outside : ¬ Within layout.procs 1152 address) :
    (procinit layout index kernel).mem address = kernel.mem address := by
  have noName : ¬ Within (nameAddr layout 0) 16 address := fun inside =>
    outside (within_procs_of_name layout (show 0 < maxProc by decide) inside)
  have other (i : Nat) (small : i < 16) :
      address ≠ nameAddr layout 0 + BitVec.ofNat 64 i := by
    rintro rfl
    exact noName (within_offset _ small (by omega))
  simp only [procinit, KernelState.mem, first]
  refine (Function.update_of_ne (other 6 (by decide)) _ _).trans ?_
  refine (Function.update_of_ne (other 5 (by decide)) _ _).trans ?_
  exact safestrcpy_outside _ _ _ _ 16 (by decide) noName

/-- Below the frames, `main` writes to the process table only. -/
theorem main_keeps {layout : Layout} (bootable : Bootable layout)
    {index : Byte} {fuel : Nat} {mem : Memory} {kernel : KernelState}
    (success : main layout index fuel mem = .ok kernel) {address : Addr}
    (below : address.toNat < layout.last.toNat)
    (outside : ¬ Within layout.procs 1152 address) :
    kernel.mem address = mem address := by
  rw [main, bind_eq_ok] at success
  rcases success with ⟨heap, allocator, success⟩
  rw [bind_eq_ok] at success
  rcases success with ⟨⟨kpml4, heap₁⟩, built, success⟩
  dsimp only at success
  rw [bind_eq_ok] at success
  rcases success with ⟨⟨upml4, heap₂⟩, copied, success⟩
  rcases Except.ok.inj success with rfl
  have valid := bootable.valid
  rcases kallocinit_spec allocator with ⟨free, invariant, count⟩
  have inMemory : kernbase ≤ layout.last := by
    rcases valid.procsPlaced with ⟨low, fits⟩
    have range := layout.last.isLt
    bv_omega
  rcases paginginitBsp_spec inMemory invariant (count ▸ bootable.room) with
    ⟨kpml4', heap₁', rest, allocated, built', wellFormed, -, -, room⟩
  rw [built] at built'
  rcases Prod.mk.inj (Except.ok.inj built') with ⟨rfl, rfl⟩
  let zero := KernelState.zero heap₁
  let started : KernelState :=
    { zero with image := { zero.image with kpml4, cr3 := v2p kpml4 } }
  have named : (procinit layout index started).mem address =
      heap₁.mem address := procinit_keeps rfl outside
  rcases wellFormed_congr wellFormed (fun address above =>
      @procinit_outside layout valid index started rfl address above) with
    ⟨sameTables, wellFormed', -⟩
  have last := @uvminit_keeps _ _ _ _ _ _ _ _ _ wellFormed'
    (sameTables.symm ▸ room) copied address below
  calc heap₂.mem address
      = (procinit layout index started).mem address := last
    _ = heap₁.mem address := named
    _ = heap.mem address :=
        paginginitBsp_keeps inMemory invariant built below
    _ = mem address := kallocinitLoop_keeps allocator below

/-! ## The kernel file -/

/-- The image in the kernel file: the bytes from the header on. -/
def imageByte (disk : Disk) (n i : Nat) : Byte :=
  disk (512 + 4 * n + i)

/--
The kernel file as it is linked: its first header, at word `n`, is the one of
`entry64.S`, and the descriptors of the entry code are in the image.
-/
structure KernelFile (disk : Disk) (n : Nat) (symbols : Symbols) : Prop where
  contained : 4 * n + 32 ≤ 8192
  header : diskHeader disk n = symbols.header
  first : ∀ m, m < n → ¬ (diskHeader disk m).Valid
  limit : (diskWord disk (512 + 4 * n +
    (symbols.gdtr64.toNat - kernelBegin.toNat))).setWidth 16 = 23#16
  base : diskWord disk (512 + 4 * n +
    (symbols.gdtr64.toNat - kernelBegin.toNat + 2)) =
      symbols.low symbols.gdt64Begin
  codeLow : diskWord disk (512 + 4 * n +
    (symbols.gdt64Begin.toNat - kernelBegin.toNat + 8)) = 0
  codeHigh : diskWord disk (512 + 4 * n +
    (symbols.gdt64Begin.toNat - kernelBegin.toNat + 12)) = 0x00209800

section Load

variable {symbols : Symbols} (linked : symbols.Linked)
include linked

theorem toNat_mbootLoadEnd :
    symbols.mbootLoadEnd.toNat =
      0x100000 + (symbols.edata.toNat - kernelBegin.toNat) := by
  have start : kernelBegin.toNat = 0xFFFFFFFF80100000 := by decide
  have base : kernbase.toNat = 0xFFFFFFFF80000000 := by decide
  have load : mbootLoadAddr.toNat = 0x100000 := rfl
  have ordered := linked.ordered
  have inMemory := linked.inMemory
  have low := linked.main.1
  have high := linked.main.2
  rw [Symbols.mbootLoadEnd, BitVec.toNat_add, BitVec.toNat_setWidth,
    BitVec.toNat_sub_of_le (by rw [BitVec.le_def]; omega), load]
  omega

theorem toNat_mbootBssEnd :
    symbols.mbootBssEnd.toNat =
      0x100000 + (symbols.last.toNat - kernelBegin.toNat) := by
  have start : kernelBegin.toNat = 0xFFFFFFFF80100000 := by decide
  have base : kernbase.toNat = 0xFFFFFFFF80000000 := by decide
  have load : mbootLoadAddr.toNat = 0x100000 := rfl
  have ordered := linked.ordered
  have inMemory := linked.inMemory
  have low := linked.main.1
  have high := linked.main.2
  rw [Symbols.mbootBssEnd, BitVec.toNat_add, BitVec.toNat_setWidth,
    BitVec.toNat_sub_of_le (by rw [BitVec.le_def]; omega), load]
  omega

theorem mbootEntryAddr_eq :
    symbols.mbootEntryAddr = symbols.low symbols.mbootEntry := by
  rw [Symbols.mbootEntryAddr, Symbols.low, linked.mbootHeader,
    BitVec.add_comm]

/-- The header of the linked kernel passes every check of the loader. -/
theorem loadable_header (n : Nat) :
    symbols.header.Loadable n := by
  have loadEnd := toNat_mbootLoadEnd linked
  have load : mbootLoadAddr.toNat = 0x100000 := rfl
  have start : kernelBegin.toNat = 0xFFFFFFFF80100000 := by decide
  have base : kernbase.toNat = 0xFFFFFFFF80000000 := by decide
  have ordered := linked.ordered
  have inMemory := linked.inMemory
  refine ⟨?_, Nat.le_refl _, ?_, ?_, ?_, ?_, ?_⟩
  · show mbootFlags &&& 0x10000 ≠ 0
    decide
  · show mbootLoadAddr.toNat ≤ symbols.mbootLoadEnd.toNat
    omega
  · show mbootLoadAddr.toNat - mbootLoadAddr.toNat ≤ 4 * n
    omega
  · show symbols.header.fileOffset n % 512 ≤ 0x100000
    omega
  · show symbols.mbootLoadEnd.toNat + 511 < 2 ^ 32
    omega
  · rintro address ⟨above, -⟩ reserved
    have low : 0x100000 ≤ address.toNat + 511 := above
    rcases reserved with ⟨_, upper⟩ | ⟨_, upper⟩
    · omega
    · omega

end Load

/-- What the loader leaves in the range of the image. -/
theorem bootmain_image {disk : Disk} {n fuel : Nat} {symbols : Symbols}
    (linked : symbols.Linked) (file : KernelFile disk n symbols)
    (enough : 2 ^ 23 ≤ fuel) (mem : PhysMemory) :
    ∃ mem', bootmain disk fuel mem =
        .ok (.enters (symbols.low symbols.mbootEntry) mem') ∧
      ∀ i, i < symbols.last.toNat - kernelBegin.toNat →
        mem' (BitVec.ofNat 32 (0x100000 + i)) =
          if i < symbols.edata.toNat - kernelBegin.toNat then
            imageByte disk n i
          else 0 := by
  have loadable := loadable_header linked n
  have loadEnd := toNat_mbootLoadEnd linked
  have bssEnd := toNat_mbootBssEnd linked
  have start : kernelBegin.toNat = 0xFFFFFFFF80100000 := by decide
  have base : kernbase.toNat = 0xFFFFFFFF80000000 := by decide
  have inMemory := linked.inMemory
  obtain ⟨fetchedMem, fetch, fetched, -⟩ := readseg_scratch disk mem enough
  obtain ⟨imageMem, load, image, outside⟩ :=
    loadable.readseg_image file.contained disk fetchedMem enough
  have kept : Fetched disk imageMem := fetched.of_eq fun address inside =>
    outside address (loadable.apart_scratch inside)
  have cleared : Fetched disk (symbols.header.clearBss imageMem) :=
    kept.of_eq fun address inside => by
      rw [clearBss_eq,
        if_neg (loadable.not_bss (loadable.apart_scratch inside))]
  have valid : symbols.header.Valid := by
    refine ⟨rfl, ?_⟩
    show mbootMagic + mbootFlags + (- mbootMagic - mbootFlags) = 0
    decide
  have entry : symbols.header.entryAddr = symbols.low symbols.mbootEntry :=
    mbootEntryAddr_eq linked
  have entered := @bootmain_eq disk mem fetchedMem imageMem n fuel
    file.contained (file.header ▸ valid) file.first (file.header ▸ loadable)
    fetch fetched (by rw [file.header]; exact load) kept
    (by rw [file.header]; exact cleared)
  rw [file.header, entry] at entered
  refine ⟨_, entered, fun i inImage => ?_⟩
  have place : (BitVec.ofNat 32 (0x100000 + i)).toNat = 0x100000 + i := by
    rw [BitVec.toNat_ofNat]
    omega
  have header : symbols.header.loadEndAddr.toNat =
      0x100000 + (symbols.edata.toNat - kernelBegin.toNat) := loadEnd
  have bss : symbols.header.bssEndAddr.toNat =
      0x100000 + (symbols.last.toNat - kernelBegin.toNat) := bssEnd
  have lower : symbols.header.loadAddr.toNat = 0x100000 := rfl
  have offset : symbols.header.fileOffset n = 4 * n := by
    show 4 * n - (mbootLoadAddr.toNat - mbootLoadAddr.toNat) = 4 * n
    omega
  rw [clearBss_eq, header, bss, place]
  by_cases loaded : i < symbols.edata.toNat - kernelBegin.toNat
  · rw [if_neg (by omega), if_pos loaded,
      image _ (by rw [lower, place]; omega) (by rw [header, place]; omega),
      place, lower, Nat.add_sub_cancel_left, offset, imageByte]
  · rw [if_pos ⟨by omega, by omega⟩, if_neg loaded]

/-! ## The image on its way -/

/-- The loaded part of the image is at its place. -/
def ImageIn (disk : Disk) (n : Nat) (symbols : Symbols) (mem : PhysMemory) :
    Prop :=
  ∀ i, i < symbols.edata.toNat - kernelBegin.toNat →
    mem (BitVec.ofNat 32 (0x100000 + i)) = imageByte disk n i

section Image

variable {disk : Disk} {n : Nat} {symbols : Symbols} {mem : PhysMemory}

theorem ImageIn.bootTables (image : ImageIn disk n symbols mem)
    (linked : symbols.Linked) :
    ImageIn disk n symbols (bootTables mem) := by
  intro i bound
  have start : kernelBegin.toNat = 0xFFFFFFFF80100000 := by decide
  have base : kernbase.toNat = 0xFFFFFFFF80000000 := by decide
  have ordered := linked.ordered
  have inMemory := linked.inMemory
  have place : (BitVec.ofNat 32 (0x100000 + i)).toNat = 0x100000 + i := by
    rw [BitVec.toNat_ofNat]
    omega
  rw [bootTables_outside mem (Or.inr (by omega))]
  exact image i bound

/-- A word in memory whose bytes are those of the disk. -/
theorem word_eq_diskWord {address : PhysAddr} {offset : Nat}
    (byte : ∀ i < 4, mem (address + BitVec.ofNat 32 i) = disk (offset + i)) :
    word mem address = diskWord disk offset := by
  have first := byte 0 (by decide)
  rw [show BitVec.ofNat 32 0 = 0#32 from rfl, BitVec.add_zero] at first
  rw [Boot.Bootmain.word, diskWord, first]
  exact congrArg₂ _ (congrArg₂ _ (congrArg₂ _ (byte 3 (by decide))
    (byte 2 (by decide))) (byte 1 (by decide))) rfl

theorem ImageIn.word (image : ImageIn disk n symbols mem) {offset : Nat}
    (fits : offset + 4 ≤ symbols.edata.toNat - kernelBegin.toNat) :
    word mem (BitVec.ofNat 32 (0x100000 + offset)) =
      diskWord disk (512 + 4 * n + offset) := by
  apply word_eq_diskWord
  intro i inWord
  rw [← BitVec.ofNat_add, Nat.add_assoc, image (offset + i) (by omega),
    imageByte, Nat.add_assoc (512 + 4 * n)]

/-- The descriptors come with the image. -/
theorem ImageIn.described (image : ImageIn disk n symbols mem)
    (linked : symbols.Linked) (file : KernelFile disk n symbols) :
    symbols.Described mem := by
  have start : kernelBegin.toNat = 0xFFFFFFFF80100000 := by decide
  have place {symbol : Addr} {size : Nat}
      (inImage : symbols.InImage symbol size) : symbols.low symbol =
        BitVec.ofNat 32 (0x100000 + (symbol.toNat - kernelBegin.toNat)) := by
    rcases linked.place inImage with ⟨x, low, high, rfl, lowEq⟩
    have base : kernbase.toNat = 0xFFFFFFFF80000000 := by decide
    have offset : 0x100000 +
        ((kernbase + BitVec.ofNat 64 x).toNat - kernelBegin.toNat) = x := by
      rw [BitVec.toNat_add, BitVec.toNat_ofNat, base, start]
      omega
    rw [lowEq, offset]
  have word {symbol : Addr} {size : Nat}
      (inImage : symbols.InImage symbol size) (k : Nat) (fits : k + 4 ≤ size) :
      Boot.Bootmain.word mem (symbols.low symbol + BitVec.ofNat 32 k) =
        diskWord disk
          (512 + 4 * n + (symbol.toNat - kernelBegin.toNat + k)) := by
    have low := inImage.1
    have high := inImage.2
    rw [place inImage, ← BitVec.ofNat_add, Nat.add_assoc]
    exact image.word (by omega)
  have limit := word linked.gdtr64 0 (by decide)
  rw [show BitVec.ofNat 32 0 = 0#32 from rfl, BitVec.add_zero,
    Nat.add_zero] at limit
  exact ⟨limit ▸ file.limit, (word linked.gdtr64 2 (by decide)).trans file.base,
    (word linked.gdt64Begin 8 (by decide)).trans file.codeLow,
    (word linked.gdt64Begin 12 (by decide)).trans file.codeHigh⟩

end Image

/-- A link address is the load address seen through the second mapping. -/
theorem kernelBegin_add (i : Nat) :
    kernelBegin + BitVec.ofNat 64 i =
      kernbase + BitVec.ofNat 64 (0x100000 + i) := by
  rw [BitVec.ofNat_add, ← BitVec.add_assoc]
  rfl

/-- Memory as the devices and the other processors see it. -/
def physical (mem : Memory) : PhysMemory := fun address =>
  mem (p2v (address.setWidth 64))

/-- The variables of the kernel are where the linker script puts them. -/
structure Arranged (symbols : Symbols) (layout : Layout) : Prop where
  last : layout.last = symbols.last
  -- `procs` is one of the variables in the bss
  procs : symbols.edata.toNat ≤ layout.procs.toNat

section Handover

variable {disk : Disk} {n : Nat} {symbols : Symbols} {layout : Layout}
variable {index : Byte} {fuel : Nat} {mem : PhysMemory} {kernel : KernelState}
variable (linked : symbols.Linked) (arranged : Arranged symbols layout)
variable (bootable : Bootable layout)
variable (success : main layout index fuel (directMap mem) = .ok kernel)
include linked arranged bootable success

/-- `main` leaves physical memory alone up to the end of the loaded image. -/
theorem physical_main {x : Nat}
    (below : x < 0x100000 + (symbols.edata.toNat - kernelBegin.toNat)) :
    kernel.mem (kernbase + BitVec.ofNat 64 x) = mem (BitVec.ofNat 32 x) := by
  have start : kernelBegin.toNat = 0xFFFFFFFF80100000 := by decide
  have base : kernbase.toNat = 0xFFFFFFFF80000000 := by decide
  have ordered := linked.ordered
  have inMemory := linked.inMemory
  have low := linked.main.1
  have high := linked.main.2
  have procs := arranged.procs
  rcases bootable.valid.procsPlaced with ⟨_, fits⟩
  have range := layout.last.isLt
  have place : (kernbase + BitVec.ofNat 64 x).toNat = kernbase.toNat + x := by
    rw [BitVec.toNat_add, BitVec.toNat_ofNat, base]
    omega
  have same := @main_keeps _ bootable _ _ _ _ success
    (kernbase + BitVec.ofNat 64 x) (by rw [place, arranged.last]; omega)
    (by rw [within_iff_between (by omega), place]; omega)
  rw [same, directMap]
  congr 1
  apply BitVec.eq_of_toNat_eq
  rw [BitVec.toNat_setWidth, BitVec.toNat_ofNat,
    show v2p (kernbase + BitVec.ofNat 64 x) = BitVec.ofNat 64 x by bv_omega,
    BitVec.toNat_ofNat]
  omega

theorem bootstrap_main (bootstrap : Bootstrap mem) :
    Bootstrap (physical kernel.mem) := by
  intro address lower upper
  have place : p2v (address.setWidth 64) =
      kernbase + BitVec.ofNat 64 address.toNat := by
    rw [BitVec.ofNat_toNat, BitVec.add_comm]
  rw [physical, place,
    physical_main linked arranged bootable success (by omega),
    BitVec.ofNat_toNat, BitVec.setWidth_eq]
  exact bootstrap address lower upper

theorem ImageIn.main (image : ImageIn disk n symbols mem) :
    ImageIn disk n symbols (physical kernel.mem) := by
  intro i bound
  have place : p2v ((BitVec.ofNat 32 (0x100000 + i)).setWidth 64) =
      kernbase + BitVec.ofNat 64 (0x100000 + i) := by
    have start : kernelBegin.toNat = 0xFFFFFFFF80100000 := by decide
    have base : kernbase.toNat = 0xFFFFFFFF80000000 := by decide
    have ordered := linked.ordered
    have inMemory := linked.inMemory
    rw [BitVec.add_comm]
    congr 1
    apply BitVec.eq_of_toNat_eq
    rw [BitVec.toNat_setWidth, BitVec.toNat_ofNat, BitVec.toNat_ofNat]
    omega
  rw [physical, place,
    physical_main linked arranged bootable success (by omega)]
  exact image i bound

end Handover

/-! ## The whole way -/

/-- The loader and the entry code, on any processor that is in protected mode. -/
theorem loader_enters {disk : Disk} {n fuel : Nat} {symbols : Symbols}
    (linked : symbols.Linked) (file : KernelFile disk n symbols)
    (enough : 2 ^ 23 ≤ fuel) (mem : PhysMemory) :
    ∃ mem', bootmain disk fuel mem =
        .ok (.enters (symbols.low symbols.mbootEntry) mem') ∧
      ImageIn disk n symbols (Entry.bootTables mem') ∧
      ∀ cpu : Cpu, cpu.mem = mem' → cpu.cr0.getLsbD 0 →
        ∃ cpu', enterKernel symbols (mbootEntry cpu) = some cpu' ∧
          Entered symbols (mbootEntry cpu) cpu' ∧
          ∀ i, i < symbols.last.toNat - kernelBegin.toNat →
            cpu'.read (kernelBegin + BitVec.ofNat 64 i) =
              some (if i < symbols.edata.toNat - kernelBegin.toNat then
                imageByte disk n i else 0) := by
  have start : kernelBegin.toNat = 0xFFFFFFFF80100000 := by decide
  have base : kernbase.toNat = 0xFFFFFFFF80000000 := by decide
  have ordered := linked.ordered
  have inMemory := linked.inMemory
  obtain ⟨mem', loads, bytes⟩ := bootmain_image linked file enough mem
  have image : ImageIn disk n symbols mem' := fun i bound => by
    rw [bytes i (by omega), if_pos bound]
  have tables := bootstrap_bootTables mem'
  have mapped := image.bootTables linked
  refine ⟨mem', loads, mapped, ?_⟩
  rintro cpu rfl protectedMode
  obtain ⟨cpu', enters, entered⟩ := @enterKernel_spec symbols (mbootEntry cpu)
    linked (mapped.described linked file) tables protectedMode
  have memory : cpu'.mem = Entry.bootTables cpu.mem := entered.mem
  refine ⟨cpu', enters, entered, fun i bound => ?_⟩
  have place : (BitVec.ofNat 32 (0x100000 + i)).toNat = 0x100000 + i := by
    rw [BitVec.toNat_ofNat]
    omega
  rw [Cpu.read, @Cpu.phys_eq cpu' (memory ▸ tables) entered.root _
    (0x100000 + i) (by omega) (Or.inr (kernelBegin_add i)), Option.map_some,
    memory, bootTables_outside cpu.mem (Or.inr (by omega)), bytes i bound]

/--
With a kernel file that is linked as the linker script says, the boot loader calls
`mboot_entry`, and the entry code arrives at `main` in long mode.  There, and again
when `main` has switched to its own tables, every link address of the image leads
to the byte of the file; the bss is zero.  Another processor that enters later,
with a nonzero `ebx`, arrives at `mpenter`.
-/
theorem kernel_boots_from_disk {disk : Disk} {n fuel : Nat}
    {symbols : Symbols} {layout : Layout} (linked : symbols.Linked)
    (file : KernelFile disk n symbols) (arranged : Arranged symbols layout)
    (bootable : Bootable layout) (enough : 2 ^ 23 ≤ fuel) (mem : PhysMemory)
    (cpu : Cpu) (protectedMode : cpu.cr0.getLsbD 0) (index : Byte) :
    ∃ mem' cpu' kernel,
      bootmain disk fuel mem =
          .ok (.enters (symbols.low symbols.mbootEntry) mem') ∧
        enterKernel symbols (mbootEntry { cpu with mem := mem' }) =
          some cpu' ∧
        cpu'.LongMode ∧ cpu'.rip = symbols.main ∧
        (∀ i, i < symbols.last.toNat - kernelBegin.toNat →
          cpu'.read (kernelBegin + BitVec.ofNat 64 i) =
            some (if i < symbols.edata.toNat - kernelBegin.toNat then
              imageByte disk n i else 0)) ∧
        main layout index (2 ^ 53) (directMap cpu'.mem) = .ok kernel ∧
        (∀ i, i < symbols.edata.toNat - kernelBegin.toNat →
          (translate kernel.mem 4 kernel.image.kpml4
              (kernelBegin + BitVec.ofNat 64 i)).map Translation.target =
            some (0x100000 + i) ∧
          kernel.mem (kernelBegin + BitVec.ofNat 64 i) =
            imageByte disk n i) ∧
        ∀ other : Cpu, other.mem = physical kernel.mem →
          other.cr0.getLsbD 0 → other.ebx ≠ 0 →
          ∃ other', enterKernel symbols other = some other' ∧
            other'.LongMode ∧ other'.rip = symbols.mpenter ∧
            other'.rsp = word other.mem 0x6FF4 ++ word other.mem 0x6FF0 := by
  have start : kernelBegin.toNat = 0xFFFFFFFF80100000 := by decide
  have base : kernbase.toNat = 0xFFFFFFFF80000000 := by decide
  have ordered := linked.ordered
  have inMemory := linked.inMemory
  obtain ⟨mem', loads, mapped, enter⟩ := loader_enters linked file enough mem
  obtain ⟨cpu', enters, entered, reads⟩ :=
    enter { cpu with mem := mem' } rfl protectedMode
  have tables := bootstrap_bootTables mem'
  have memory : cpu'.mem = Entry.bootTables mem' := entered.mem
  obtain ⟨kernel, boots⟩ := main_returns bootable index (directMap cpu'.mem)
  have handover := boots
  rw [memory] at handover
  refine ⟨mem', cpu', kernel, loads, enters, entered.longMode,
    (entered.first rfl).1, reads, boots, ?_, ?_⟩
  · intro i bound
    have spaces := main_spaces bootable boots
    have last := Spaces.last_le spaces
    rw [memoryEnd_eq, arranged.last] at last
    have inDirectMap : 0x100000 + i < maxPhysMem.toNat := by
      show 0x100000 + i < 0x1000000
      omega
    have canonical : Canonical (kernelBegin + BitVec.ofNat 64 i) := by
      right
      rw [BitVec.toNat_add, BitVec.toNat_ofNat, start]
      omega
    refine ⟨?_, ?_⟩
    · exact (kernel_target spaces canonical _).mpr
        (Or.inl ⟨_, inDirectMap, kernelBegin_add i, rfl⟩)
    · rw [kernelBegin_add,
        physical_main linked arranged bootable handover (by omega)]
      exact mapped i bound
  · intro other sameMem otherMode nonzero
    obtain ⟨other', arrives, otherEntered⟩ := @enterKernel_spec symbols other
      linked (sameMem ▸ (mapped.main linked arranged bootable
        handover).described linked file)
      (sameMem ▸ bootstrap_main linked arranged bootable handover tables)
      otherMode
    exact ⟨other', arrives, otherEntered.longMode,
      (otherEntered.other nonzero).1, (otherEntered.other nonzero).2⟩

/-- The symbols of a small kernel. -/
def sampleSymbols : Symbols where
  edata := 0xFFFFFFFF80101000
  last := 0xFFFFFFFF80114000
  mbootHeader := kernelBegin
  mbootEntry := 0xFFFFFFFF80100020
  gdtr64 := 0xFFFFFFFF80100030
  gdt64Begin := 0xFFFFFFFF80100040
  entry64low := 0xFFFFFFFF80100060
  entry64high := 0xFFFFFFFF80100070
  main := 0xFFFFFFFF80100080
  mpenter := 0xFFFFFFFF80100084

/-- The file of the small kernel: header, `hlt` for the code, descriptors. -/
def sampleFile : Disk :=
  BootHeader.fileOf fun k => words.getD k 0xF4F4F4F4
where
  words : List (BitVec 32) :=
    [mbootMagic, mbootFlags, 0xE4514FFE, 0x100000, 0x100000, 0x101000, 0x114000,
      0x100020, 0xF4F4F4F4, 0xF4F4F4F4, 0xF4F4F4F4, 0xF4F4F4F4, 0x00400017, 0x10,
      0, 0, 0, 0, 0, 0x00209800, 0, 0x00009000]

/-- Its variables: the process table is the first one in the bss. -/
def bssLayout : Layout :=
  { sampleLayout with
    procs := 0xFFFFFFFF80101000
    idleName := 0xFFFFFFFF80100800 }

theorem bssLayout_bootable : Bootable bssLayout where
  valid :=
    { sampleLayout_valid with
      procsPlaced := ⟨by decide, by decide⟩
      procsKstacks := @apart_of_offsets 0xFFFFFFFF80100000 0x1000 0x2000 1152
        32768 (by decide) (by decide)
      procsUstacks := @apart_of_offsets 0xFFFFFFFF80100000 0x1000 0xA000 1152
        32768 (by decide) (by decide) }
  room := by decide

theorem sampleSymbols_linked : sampleSymbols.Linked where
  mbootHeader := rfl
  ordered := by decide
  inMemory := by decide
  mbootEntry := ⟨by decide, by decide⟩
  gdtr64 := ⟨by decide, by decide⟩
  gdt64Begin := ⟨by decide, by decide⟩
  entry64low := ⟨by decide, by decide⟩
  entry64high := ⟨by decide, by decide⟩
  main := ⟨by decide, by decide⟩
  mpenter := ⟨by decide, by decide⟩

theorem sampleFile_kernelFile : KernelFile sampleFile 0 sampleSymbols where
  contained := by decide
  header := by
    simp only [diskHeader, MbHeader.ofWords, Symbols.header, MbHeader.mk.injEq]
    decide +kernel
  first := fun m before => absurd before (Nat.not_lt_zero m)
  limit := by decide +kernel
  base := by decide +kernel
  codeLow := by decide +kernel
  codeHigh := by decide +kernel

theorem kernel_boots_from_disk_sample :
    ∃ mem' cpu' kernel,
      bootmain sampleFile (2 ^ 23) (fun _ => 0xFF) =
          .ok (.enters 0x100020 mem') ∧
        enterKernel sampleSymbols (mbootEntry { loaderCpu with mem := mem' }) =
          some cpu' ∧
        cpu'.rip = 0xFFFFFFFF80100080 ∧
        cpu'.read 0xFFFFFFFF80100024 = some 0xF4 ∧
        cpu'.read 0xFFFFFFFF80101000 = some 0 ∧
        main bssLayout 0 (2 ^ 53) (directMap cpu'.mem) = .ok kernel ∧
        kernel.mem 0xFFFFFFFF80100024 = 0xF4 := by
  obtain ⟨mem', cpu', kernel, loads, enters, -, arrives, reads, boots, bytes,
      -⟩ :=
    @kernel_boots_from_disk sampleFile 0 (2 ^ 23) sampleSymbols bssLayout
      sampleSymbols_linked sampleFile_kernelFile ⟨rfl, by decide⟩
      bssLayout_bootable (Nat.le_refl _) (fun _ => 0xFF) loaderCpu (by decide) 0
  refine ⟨mem', cpu', kernel, loads, enters, arrives, ?_, ?_, boots, ?_⟩
  · exact (reads 0x24 (by decide)).trans (by decide +kernel)
  · exact (reads 0x1000 (by decide)).trans (by decide +kernel)
  · exact (bytes 0x24 (by decide)).2.trans (by decide +kernel)

end Rt64.Kernel.BootChain
