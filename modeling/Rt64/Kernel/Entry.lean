import Rt64.Boot.Bootasm
import Rt64.Kernel.Isolation

/-!
# From the boot loader to `main`

`mboot_entry` builds three page tables in low memory, which map the first gigabyte
of physical memory twice: at address zero, where the code runs when paging is
switched on, and at `KERNBASE`, where it is linked.  `entry32mp` switches to long
mode and jumps through the first mapping to `entry64low`, which jumps through the
second one to `entry64high`.  A secondary processor enters at `entry32mp`, with a
nonzero `ebx`, and uses the same tables.

An instruction that faults ends the run with `none`.
-/

namespace Rt64.Kernel.Entry

open Rt64.Lib.ByteMemory
open Rt64.Include.Defs
open Rt64.Boot.Bootasm (setWord)
open Rt64.Boot.Bootmain
open Rt64.Kernel.Paging
open Rt64.Kernel.PageTree
open Rt64.Kernel.Isolation

/-! ## The processor -/

/-- What the entry code uses of a processor. -/
structure Cpu where
  mem : PhysMemory
  cr0 : BitVec 32
  cr3 : BitVec 32
  cr4 : BitVec 32
  /-- The model-specific register `0xc0000080`. -/
  efer : BitVec 64
  gdtLimit : BitVec 16
  gdtBase : BitVec 32
  cs : BitVec 16
  /-- The long-mode bit of the code segment. -/
  csLong : Bool
  ss : BitVec 16
  ds : BitVec 16
  es : BitVec 16
  fs : BitVec 16
  gs : BitVec 16
  ebx : BitVec 32
  rsp : BitVec 64
  rip : Addr

/-- `bts`. -/
def bts (value : BitVec 32) (bit : Nat) : BitVec 32 :=
  value ||| 1#32 <<< bit

/-- The direct map as the kernel sees it. -/
def directMap (mem : PhysMemory) : Memory := fun va =>
  mem ((v2p va).setWidth 32)

namespace Cpu

/-- Paging is on, in long mode. -/
def Paged (cpu : Cpu) : Prop :=
  cpu.cr0.getLsbD 31 ∧ cpu.cr4.getLsbD 5 ∧ cpu.efer.getLsbD 10

/-- Instructions are 64-bit ones. -/
def LongMode (cpu : Cpu) : Prop :=
  cpu.Paged ∧ cpu.csLong

/-- Where a virtual address leads. -/
def phys (cpu : Cpu) (va : Addr) : Option PhysAddr :=
  (translate (directMap cpu.mem) 4 (p2v (cpu.cr3.setWidth 64)) va).map
    fun translation => BitVec.ofNat 32 translation.target

/-- The byte at a virtual address. -/
def read (cpu : Cpu) (va : Addr) : Option Byte :=
  (cpu.phys va).map cpu.mem

/-- The aligned quad at a virtual address; it does not leave its page. -/
def readQuad (cpu : Cpu) (va : Addr) : Option (BitVec 64) :=
  (cpu.phys va).map fun address =>
    word cpu.mem (address + 4) ++ word cpu.mem address

/-- `lgdt` in 32-bit mode, before there is paging. -/
def lgdt (cpu : Cpu) (address : PhysAddr) : Cpu :=
  { cpu with
    gdtLimit := (word cpu.mem address).setWidth 16
    gdtBase := word cpu.mem (address + 2) }

/-- A write of `cr0`: paging needs protected mode, and long mode needs PAE; it
becomes active when paging is switched on. -/
def setCr0 (cpu : Cpu) (value : BitVec 32) : Option Cpu :=
  if value.getLsbD 31 then
    if ¬ value.getLsbD 0 then none
    else if cpu.efer.getLsbD 8 then
      if cpu.cr4.getLsbD 5 then
        some { cpu with cr0 := value, efer := cpu.efer ||| 0x400 }
      else none
    else some { cpu with cr0 := value }
  else some { cpu with cr0 := value }

/-- `jmp`, to an address that has to be mapped. -/
def jmp (cpu : Cpu) (target : Addr) : Option Cpu :=
  (cpu.phys target).map fun _ => { cpu with rip := target }

/-- A descriptor of a code segment that the kernel may jump to: present, of level
zero, and not both a 64-bit and a 32-bit one. -/
def CodeSegment (desc : BitVec 64) : Prop :=
  desc.getLsbD 47 ∧ desc.extractLsb' 45 2 = 0 ∧ desc.getLsbD 44 ∧
    desc.getLsbD 43 ∧ ¬ desc.getLsbD 42 ∧ ¬ (desc.getLsbD 53 ∧ desc.getLsbD 54)

instance (desc : BitVec 64) : Decidable (CodeSegment desc) :=
  inferInstanceAs (Decidable (_ ∧ _ ∧ _ ∧ _ ∧ _ ∧ _))

/-- `ljmp` with paging on. -/
def ljmp (cpu : Cpu) (selector : BitVec 16) (target : BitVec 32) :
    Option Cpu := do
  if cpu.gdtLimit.toNat < selector.toNat + 7 then none
  else
    let desc ← cpu.readQuad
      (cpu.gdtBase.setWidth 64 + selector.setWidth 64)
    if CodeSegment desc then
      let cpu := { cpu with cs := selector, csLong := desc.getLsbD 53 }
      cpu.jmp (target.setWidth 64)
    else none

end Cpu

/-! ## The code -/

/-- `begin`. -/
abbrev kernelBegin : Addr := 0xFFFFFFFF80100000

abbrev mbootLoadAddr : PhysAddr := 0x100000

abbrev mbootFlags : BitVec 32 := 0x10000

/-- The symbols of the linked kernel. -/
structure Symbols where
  edata : Addr
  /-- The symbol `end`. -/
  last : Addr
  mbootHeader : Addr
  mbootEntry : Addr
  gdtr64 : Addr
  gdt64Begin : Addr
  entry64low : Addr
  entry64high : Addr
  main : Addr
  mpenter : Addr

namespace Symbols

/-- `symbol - mboot_header + mboot_load_addr`. -/
def low (symbols : Symbols) (symbol : Addr) : PhysAddr :=
  (symbol - symbols.mbootHeader).setWidth 32 + mbootLoadAddr

def mbootLoadEnd (symbols : Symbols) : PhysAddr :=
  mbootLoadAddr + (symbols.edata - kernelBegin).setWidth 32

def mbootBssEnd (symbols : Symbols) : PhysAddr :=
  mbootLoadAddr + (symbols.last - kernelBegin).setWidth 32

def mbootEntryAddr (symbols : Symbols) : PhysAddr :=
  mbootLoadAddr + (symbols.mbootEntry - kernelBegin).setWidth 32

/-- `mboot_header`. -/
def header (symbols : Symbols) : MbHeader where
  magic := mbootMagic
  flags := mbootFlags
  checksum := - mbootMagic - mbootFlags
  headerAddr := mbootLoadAddr
  loadAddr := mbootLoadAddr
  loadEndAddr := symbols.mbootLoadEnd
  bssEndAddr := symbols.mbootBssEnd
  entryAddr := symbols.mbootEntryAddr

end Symbols

/-- The bootstrap page tables. -/
def bootTables (mem : PhysMemory) : PhysMemory :=
  -- zero 3 pages
  let mem := clear 0x1000 0x3000 mem
  -- PML4[0] -> 0x2000, PML4[511] -> 0x3000
  let mem := setWord 0x1000 ((0x2000 ||| pfW ||| pfP).setWidth 32) mem
  let mem := setWord 0x1FF8 ((0x3000 ||| pfW ||| pfP).setWidth 32) mem
  -- PDPT-A[0] -> 0x0, PDPT-B[510] -> 0x0, both of them 1G huge pages
  let mem := setWord 0x2000 ((0x0 ||| pfW ||| pfP ||| pfPS).setWidth 32) mem
  setWord 0x3FF0 ((0x0 ||| pfW ||| pfP ||| pfPS).setWidth 32) mem

/-- `mboot_entry`, up to `entry32mp`. -/
def mbootEntry (cpu : Cpu) : Cpu :=
  { cpu with mem := bootTables cpu.mem, ebx := 0 }

/-- `entry32mp`. -/
def entry32mp (symbols : Symbols) (cpu : Cpu) : Option Cpu := do
  let cpu := { cpu with cr3 := 0x1000 }
  let cpu := cpu.lgdt (symbols.low symbols.gdtr64)
  -- enable PAE
  let cpu := { cpu with cr4 := bts cpu.cr4 5 }
  -- enable long mode
  let eax := bts (cpu.efer.setWidth 32) 8
  let cpu := { cpu with efer := (cpu.efer >>> 32).setWidth 32 ++ eax }
  -- enable paging
  let cpu ← cpu.setCr0 (bts cpu.cr0 31)
  cpu.ljmp 8 (symbols.low symbols.entry64low)

/-- `entry64low`. -/
def entry64low (symbols : Symbols) (cpu : Cpu) : Option Cpu :=
  cpu.jmp symbols.entry64high

/-- `entry64high`, with `entry64mp`. -/
def entry64high (symbols : Symbols) (cpu : Cpu) : Option Cpu :=
  let cpu := { cpu with ss := 0, ds := 0, es := 0, fs := 0, gs := 0 }
  if cpu.ebx ≠ 0 then do
    let rsp ← cpu.readQuad (0x7000 - 16)
    let cpu := { cpu with rsp }
    cpu.jmp symbols.mpenter
  else
    let cpu := { cpu with rsp := 0xFFFFFFFF80010000 }
    cpu.jmp symbols.main

/-- From `entry32mp` to `main` or `mpenter`. -/
def enterKernel (symbols : Symbols) (cpu : Cpu) : Option Cpu := do
  let cpu ← entry32mp symbols cpu
  let cpu ← entry64low symbols cpu
  entry64high symbols cpu

/-! ## The tables -/

/-- The bootstrap tables are in place. -/
def Bootstrap (mem : PhysMemory) : Prop :=
  ∀ address : PhysAddr, 0x1000 ≤ address.toNat → address.toNat < 0x4000 →
    mem address = bootTables (fun _ => 0) address

theorem clear_outside {address target : PhysAddr} {cnt : BitVec 32}
    (mem : PhysMemory) (outside : ¬ (target - address).toNat < cnt.toNat) :
    clear address cnt mem target = mem target :=
  if_neg outside

theorem setWord_congr {left right : PhysMemory} {target : PhysAddr}
    (address : PhysAddr) (value : BitVec 32)
    (same : left target = right target) :
    setWord address value left target = setWord address value right target := by
  simp only [setWord, same]

theorem bootstrap_bootTables (mem : PhysMemory) :
    Bootstrap (bootTables mem) := by
  intro address lower upper
  have inside : (address - 0x1000).toNat < BitVec.toNat (0x3000 : BitVec 32) := by
    bv_omega
  have cleared : clear 0x1000 0x3000 mem address =
      clear 0x1000 0x3000 (fun _ => 0) address := by
    rw [clear, clear, if_pos inside, if_pos inside]
  exact setWord_congr _ _ (setWord_congr _ _ (setWord_congr _ _
    (setWord_congr _ _ cleared)))

theorem bootTables_outside (mem : PhysMemory) {address : PhysAddr}
    (outside : address.toNat < 0x1000 ∨ 0x4000 ≤ address.toNat) :
    bootTables mem address = mem address := by
  have apart (base : PhysAddr) (low : 0x1000 ≤ base.toNat)
      (high : base.toNat + 4 ≤ 0x4000) (value : BitVec 32)
      (other : PhysMemory) : setWord base value other address =
        other address := by
    refine if_neg ?_
    bv_omega
  simp only [bootTables]
  rw [apart _ (by decide) (by decide), apart _ (by decide) (by decide),
    apart _ (by decide) (by decide), apart _ (by decide) (by decide)]
  apply clear_outside
  bv_omega

/-- Every byte outside of the four entries is zero. -/
theorem bootTables_zero {address : PhysAddr}
    (unused : ∀ place ∈ [0x1000#32, 0x1FF8#32, 0x2000#32, 0x3FF0#32],
      ¬ (address - place).toNat < 4) :
    bootTables (fun _ => 0) address = 0 := by
  have apart {place : PhysAddr}
      (member : place ∈ [0x1000#32, 0x1FF8#32, 0x2000#32, 0x3FF0#32])
      (value : BitVec 32) (mem : PhysMemory) :
      setWord place value mem address = mem address :=
    if_neg (unused place member)
  simp only [bootTables]
  rw [apart (by decide), apart (by decide), apart (by decide),
    apart (by decide), clear, ite_self]

section Walk

variable {mem : PhysMemory} (bootstrap : Bootstrap mem)
include bootstrap

theorem Bootstrap.byte {table address : BitVec 64}
    (low : 0x1000 ≤ table.toNat) (high : table.toNat + 4096 ≤ 0x4000)
    (inside : Within (p2v table) 4096 address) :
    directMap mem address = directMap (bootTables fun _ => 0) address := by
  rw [Within] at inside
  have place : (v2p address).toNat =
      table.toNat + (address - p2v table).toNat := by
    bv_omega
  have narrow : ((v2p address).setWidth 32).toNat = (v2p address).toNat := by
    rw [BitVec.toNat_setWidth]
    omega
  exact bootstrap _ (by omega) (by omega)

theorem Bootstrap.getEnt_eq {table : BitVec 64} (low : 0x1000 ≤ table.toNat)
    (high : table.toNat + 4096 ≤ 0x4000) {idx : Nat} (bound : idx < pgNent) :
    getEnt (directMap mem) (p2v table) idx =
      getEnt (directMap (bootTables fun _ => 0)) (p2v table) idx :=
  getEnt_congr bound fun _ inside => bootstrap.byte low high inside

theorem Bootstrap.getEnt_zero {table : BitVec 64} (low : 0x1000 ≤ table.toNat)
    (high : table.toNat + 4096 ≤ 0x4000) (isAligned : table.toNat % 8 = 0)
    {idx : Nat} (bound : idx < 512)
    (unused : table.toNat + 8 * idx ∉ [0x1000, 0x1FF8, 0x2000, 0x3FF0]) :
    getEnt (directMap mem) (p2v table) idx = 0 := by
  simp only [List.mem_cons, List.not_mem_nil, or_false, not_or] at unused
  rcases unused with ⟨first, second, third, fourth⟩
  apply load64_eq_zero
  intro address inside
  have inTable := within_entry bound inside
  rw [bootstrap.byte low high inTable]
  rw [entryAddr, Within] at inside
  have place : (v2p address).toNat = table.toNat + 8 * idx +
      (address - (p2v table + BitVec.ofNat 64 (8 * idx))).toNat := by
    bv_omega
  have narrow : ((v2p address).setWidth 32).toNat = (v2p address).toNat := by
    rw [BitVec.toNat_setWidth]
    omega
  apply bootTables_zero
  intro word member
  simp only [List.mem_cons, List.not_mem_nil, or_false] at member
  rcases member with rfl | rfl | rfl | rfl
  all_goals rw [BitVec.toNat_sub, narrow, place]; simp only [BitVec.toNat_ofNat]; omega

end Walk

/-- No entry, no translation. -/
theorem translate_absent {mem : Memory} {level : Nat} {pt : Addr}
    {va : BitVec 64}
    (entry : getEnt mem pt (levelIdx (level + 1) va) = 0) :
    translate mem (level + 1) pt va = none := by
  rw [PageTree.translate, entry]
  exact if_pos rfl

/-- A table of the third level whose only entry is a huge page at address zero. -/
theorem translate_single {mem : Memory} {pt : Addr} {slot : Nat}
    (entry : getEnt mem pt slot = 0x83)
    (others : ∀ idx < pgNent, idx ≠ slot → getEnt mem pt idx = 0)
    (va : BitVec 64) :
    translate mem 3 pt va =
      if levelIdx 3 va = slot then
        some { target := va.toNat % 2 ^ 30
               flags := [pfW ||| pfP ||| pfPS] }
      else none := by
  by_cases found : levelIdx 3 va = slot
  · rw [← found] at entry
    rw [if_pos found, PageTree.translate, entry]
    have target : frameOf 0x83 (12 + 9 * 2) + va.toNat % 2 ^ (12 + 9 * 2) =
        va.toNat % 2 ^ 30 := Nat.zero_add _
    simp only [target]
    rfl
  · rw [if_neg found]
    exact translate_absent (others _ (levelIdx_lt 3 va) found)

/-- The translation of an address of the first gigabyte. -/
def gigabyteTranslation (x : Nat) : Translation :=
  { target := x
    flags := [pfW ||| pfP, pfW ||| pfP ||| pfPS] }

section Walk

variable {mem : PhysMemory} (bootstrap : Bootstrap mem)
include bootstrap

theorem Bootstrap.translate_low (va : BitVec 64) :
    translate (directMap mem) 3 (p2v 0x2000) va =
      if levelIdx 3 va = 0 then
        some { target := va.toNat % 2 ^ 30
               flags := [pfW ||| pfP ||| pfPS] }
      else none := by
  refine translate_single ?_ (fun idx bound other => ?_) va
  · rw [bootstrap.getEnt_eq (by decide) (by decide) (by decide)]
    decide +kernel
  · refine bootstrap.getEnt_zero (by decide) (by decide) (by decide) bound ?_
    have small : idx < 512 := bound
    have base : BitVec.toNat (0x2000 : BitVec 64) = 0x2000 := rfl
    rw [base]
    simp only [List.mem_cons, List.not_mem_nil, or_false]
    omega

theorem Bootstrap.translate_high (va : BitVec 64) :
    translate (directMap mem) 3 (p2v 0x3000) va =
      if levelIdx 3 va = 510 then
        some { target := va.toNat % 2 ^ 30
               flags := [pfW ||| pfP ||| pfPS] }
      else none := by
  refine translate_single ?_ (fun idx bound other => ?_) va
  · rw [bootstrap.getEnt_eq (by decide) (by decide) (by decide)]
    decide +kernel
  · refine bootstrap.getEnt_zero (by decide) (by decide) (by decide) bound ?_
    have small : idx < 512 := bound
    have base : BitVec.toNat (0x3000 : BitVec 64) = 0x3000 := rfl
    rw [base]
    simp only [List.mem_cons, List.not_mem_nil, or_false]
    omega

/-- The walk from the root. -/
theorem Bootstrap.translate_eq (va : BitVec 64) :
    translate (directMap mem) 4 (p2v 0x1000) va =
      if levelIdx 4 va = 0 ∧ levelIdx 3 va = 0 ∨
          levelIdx 4 va = 511 ∧ levelIdx 3 va = 510 then
        some (gigabyteTranslation (va.toNat % 2 ^ 30))
      else none := by
  by_cases low : levelIdx 4 va = 0
  · have entry : getEnt (directMap mem) (p2v 0x1000) (levelIdx 4 va) = 0x2003 := by
      rw [low, bootstrap.getEnt_eq (by decide) (by decide) (by decide)]
      decide +kernel
    have step : translate (directMap mem) 4 (p2v 0x1000) va =
        (translate (directMap mem) 3 (p2v 0x2000) va).map fun below =>
          { below with flags := (pfW ||| pfP) :: below.flags } := by
      rw [PageTree.translate, entry]
      rfl
    rw [step, bootstrap.translate_low]
    by_cases inside : levelIdx 3 va = 0
    · rw [if_pos inside, if_pos (Or.inl ⟨low, inside⟩)]
      rfl
    · rw [if_neg inside, if_neg (by omega)]
      rfl
  by_cases high : levelIdx 4 va = 511
  · have entry : getEnt (directMap mem) (p2v 0x1000) (levelIdx 4 va) = 0x3003 := by
      rw [high, bootstrap.getEnt_eq (by decide) (by decide) (by decide)]
      decide +kernel
    have step : translate (directMap mem) 4 (p2v 0x1000) va =
        (translate (directMap mem) 3 (p2v 0x3000) va).map fun below =>
          { below with flags := (pfW ||| pfP) :: below.flags } := by
      rw [PageTree.translate, entry]
      rfl
    rw [step, bootstrap.translate_high]
    by_cases inside : levelIdx 3 va = 510
    · rw [if_pos inside, if_pos (Or.inr ⟨high, inside⟩)]
      rfl
    · rw [if_neg inside, if_neg (by omega)]
      rfl
  · have entry : getEnt (directMap mem) (p2v 0x1000) (levelIdx 4 va) = 0 := by
      refine bootstrap.getEnt_zero (by decide) (by decide) (by decide)
        (levelIdx_lt 4 va) ?_
      have small : levelIdx 4 va < 512 := levelIdx_lt 4 va
      have base : BitVec.toNat (0x1000 : BitVec 64) = 0x1000 := rfl
      rw [base]
      simp only [List.mem_cons, List.not_mem_nil, or_false]
      omega
    rw [translate_absent entry, if_neg (by omega)]

/-- The canonical addresses that the tables translate. -/
theorem Bootstrap.translates {va : BitVec 64} (canonical : Canonical va)
    (translation : Translation) :
    translate (directMap mem) 4 (p2v 0x1000) va = some translation ↔
      ∃ x < 2 ^ 30, (va = BitVec.ofNat 64 x ∨ va = kernbase + BitVec.ofNat 64 x) ∧
        translation = gigabyteTranslation x := by
  have range := va.isLt
  have base : kernbase.toNat = 0xFFFFFFFF80000000 := by decide
  rw [bootstrap.translate_eq, levelIdx_eq, levelIdx_eq]
  constructor
  · intro found
    split at found
    · rename_i place
      refine ⟨va.toNat % 2 ^ 30, Nat.mod_lt _ (by decide), ?_,
        (Option.some.inj found).symm⟩
      rcases place with ⟨top, next⟩ | ⟨top, next⟩
      · left
        apply BitVec.eq_of_toNat_eq
        rw [BitVec.toNat_ofNat]
        rcases canonical with lower | upper
        · omega
        · omega
      · right
        apply BitVec.eq_of_toNat_eq
        rw [BitVec.toNat_add, BitVec.toNat_ofNat, base]
        rcases canonical with lower | upper
        · omega
        · omega
    · cases found
  · rintro ⟨x, small, place, rfl⟩
    rcases place with rfl | rfl
    · have number : (BitVec.ofNat 64 x).toNat = x := by
        rw [BitVec.toNat_ofNat]
        omega
      rw [number, if_pos (Or.inl ⟨by omega, by omega⟩), Nat.mod_eq_of_lt small]
    · have number : (kernbase + BitVec.ofNat 64 x).toNat =
          0xFFFFFFFF80000000 + x := by
        rw [BitVec.toNat_add, BitVec.toNat_ofNat, base]
        omega
      have offset : (0xFFFFFFFF80000000 + x) % 2 ^ 30 = x := by omega
      rw [number, if_pos (Or.inr ⟨by omega, by omega⟩), offset]

end Walk

/-- Whatever was in memory before, the tables of `mboot_entry` map the first
gigabyte at zero and at `KERNBASE`, and no other address. -/
theorem bootstrap_maps_first_gigabyte (cpu : Cpu) {va : BitVec 64}
    (canonical : Canonical va) (translation : Translation) :
    translate (directMap (mbootEntry cpu).mem) 4 (p2v 0x1000) va =
        some translation ↔
      ∃ x < 2 ^ 30,
        (va = BitVec.ofNat 64 x ∨ va = kernbase + BitVec.ofNat 64 x) ∧
          translation = gigabyteTranslation x :=
  (bootstrap_bootTables cpu.mem).translates canonical translation

/-- The processor in the boot loader. -/
def loaderCpu : Cpu where
  mem _ := 0xFF
  cr0 := 0x11
  cr3 := 0
  cr4 := 0
  efer := 0
  gdtLimit := 23
  gdtBase := 0x7C60
  cs := 8
  csLong := false
  ss := 16
  ds := 16
  es := 16
  fs := 0
  gs := 0
  ebx := 0
  rsp := 0x7C00
  rip := 0x7D00

theorem bootstrap_maps_first_gigabyte_kernel :
    translate (directMap (mbootEntry loaderCpu).mem) 4 (p2v 0x1000)
        0xFFFFFFFF80100000 = some (gigabyteTranslation 0x100000) :=
  (bootstrap_maps_first_gigabyte loaderCpu (by decide) _).mpr
    ⟨0x100000, by decide, Or.inr (by decide), rfl⟩

/-! ## The switch to long mode -/

/-- A symbol with `size` bytes in the loaded part of the image. -/
def Symbols.InImage (symbols : Symbols) (symbol : Addr) (size : Nat) : Prop :=
  kernelBegin.toNat ≤ symbol.toNat ∧
    symbol.toNat + size ≤ symbols.edata.toNat

/--
The image as the linker script and the order of the objects arrange it: the entry
code comes first, and the end is in the first gigabyte.
-/
structure Symbols.Linked (symbols : Symbols) : Prop where
  mbootHeader : symbols.mbootHeader = kernelBegin
  ordered : symbols.edata.toNat ≤ symbols.last.toNat
  inMemory : symbols.last.toNat ≤ kernbase.toNat + 2 ^ 30
  mbootEntry : symbols.InImage symbols.mbootEntry 1
  gdtr64 : symbols.InImage symbols.gdtr64 10
  gdt64Begin : symbols.InImage symbols.gdt64Begin 24
  entry64low : symbols.InImage symbols.entry64low 1
  entry64high : symbols.InImage symbols.entry64high 1
  main : symbols.InImage symbols.main 1
  mpenter : symbols.InImage symbols.mpenter 1

/-- The descriptors of the entry code are in memory. -/
structure Symbols.Described (symbols : Symbols) (mem : PhysMemory) :
    Prop where
  limit : (word mem (symbols.low symbols.gdtr64)).setWidth 16 = 23#16
  base : word mem (symbols.low symbols.gdtr64 + 2) =
    symbols.low symbols.gdt64Begin
  codeLow : word mem (symbols.low symbols.gdt64Begin + 8) = 0
  codeHigh : word mem (symbols.low symbols.gdt64Begin + 12) = 0x00209800

/-- The part of an address that counts from the start of physical memory. -/
theorem Symbols.Linked.place {symbols : Symbols} (linked : symbols.Linked)
    {symbol : Addr} {size : Nat} (inImage : symbols.InImage symbol size) :
    ∃ x, 0x100000 ≤ x ∧ x + size ≤ 2 ^ 30 ∧
      symbol = kernbase + BitVec.ofNat 64 x ∧
      symbols.low symbol = BitVec.ofNat 32 x := by
  have header := linked.mbootHeader
  have ordered := linked.ordered
  have inMemory := linked.inMemory
  rcases inImage with ⟨low, high⟩
  have base : kernbase.toNat = 0xFFFFFFFF80000000 := by decide
  have start : kernelBegin.toNat = 0xFFFFFFFF80100000 := by decide
  rw [start] at low
  rw [base] at inMemory
  refine ⟨symbol.toNat - 0xFFFFFFFF80000000, by omega, by omega, ?_, ?_⟩
  · apply BitVec.eq_of_toNat_eq
    rw [BitVec.toNat_add, BitVec.toNat_ofNat, base]
    omega
  · apply BitVec.eq_of_toNat_eq
    have load : mbootLoadAddr.toNat = 0x100000 := rfl
    rw [Symbols.low, header, BitVec.toNat_add, BitVec.toNat_setWidth,
      BitVec.toNat_sub_of_le (by rw [BitVec.le_def, start]; exact low), start,
      load, BitVec.toNat_ofNat]
    omega

namespace Cpu

section Phys

variable {cpu : Cpu} (bootstrap : Bootstrap cpu.mem) (root : cpu.cr3 = 0x1000)
include bootstrap root

/-- Both mappings of the first gigabyte. -/
theorem phys_eq {va : Addr} {x : Nat} (small : x < 2 ^ 30)
    (place : va = BitVec.ofNat 64 x ∨ va = kernbase + BitVec.ofNat 64 x) :
    cpu.phys va = some (BitVec.ofNat 32 x) := by
  have canonical : Canonical va := by
    have base : kernbase.toNat = 0xFFFFFFFF80000000 := by decide
    rcases place with rfl | rfl
    · left
      rw [BitVec.toNat_ofNat]
      omega
    · right
      rw [BitVec.toNat_add, BitVec.toNat_ofNat, base]
      omega
  have found := (bootstrap.translates canonical _).mpr ⟨x, small, place, rfl⟩
  have table : p2v (cpu.cr3.setWidth 64) = p2v 0x1000 := by
    rw [root]
    rfl
  rw [phys, table, found]
  rfl

theorem jmp_eq {va : Addr} {x : Nat} (small : x < 2 ^ 30)
    (place : va = BitVec.ofNat 64 x ∨ va = kernbase + BitVec.ofNat 64 x) :
    cpu.jmp va = some { cpu with rip := va } := by
  rw [jmp, phys_eq bootstrap root small place]
  rfl

theorem readQuad_eq {va : Addr} {x : Nat} (small : x < 2 ^ 30)
    (place : va = BitVec.ofNat 64 x ∨ va = kernbase + BitVec.ofNat 64 x) :
    cpu.readQuad va = some (word cpu.mem (BitVec.ofNat 32 x + 4) ++
      word cpu.mem (BitVec.ofNat 32 x)) := by
  rw [readQuad, phys_eq bootstrap root small place]
  rfl

end Phys

theorem setCr0_of_long {cpu : Cpu} {value : BitVec 32}
    (paging : value.getLsbD 31) (protectedMode : value.getLsbD 0)
    (pae : cpu.cr4.getLsbD 5) (lme : cpu.efer.getLsbD 8) :
    cpu.setCr0 value =
      some { cpu with cr0 := value, efer := cpu.efer ||| 0x400 } := by
  rw [setCr0, if_pos paging, if_neg (not_not.mpr protectedMode), if_pos lme,
    if_pos pae]

end Cpu

theorem getLsbD_bts (value : BitVec 32) (bit place : Nat) :
    (bts value bit).getLsbD place =
      (value.getLsbD place || decide (place < 32 ∧ place = bit)) := by
  rw [bts, BitVec.getLsbD_or, BitVec.getLsbD_shiftLeft]
  congr 1
  by_cases same : place = bit
  · subst same
    simp
  · simp [same]
    omega

/-- The processor before the far jump of `entry32mp`. -/
def withPaging (symbols : Symbols) (cpu : Cpu) : Cpu :=
  { cpu with
    cr0 := bts cpu.cr0 31
    cr3 := 0x1000
    cr4 := bts cpu.cr4 5
    efer := ((cpu.efer >>> 32).setWidth 32 ++ bts (cpu.efer.setWidth 32) 8) |||
      0x400
    gdtLimit := 23#16
    gdtBase := symbols.low symbols.gdt64Begin }

/-- The processor after `entry32mp`. -/
def inLongMode (symbols : Symbols) (cpu : Cpu) : Cpu :=
  { withPaging symbols cpu with
    cs := 8
    csLong := true
    rip := (symbols.low symbols.entry64low).setWidth 64 }

theorem longMode_inLongMode (symbols : Symbols) (cpu : Cpu) :
    (inLongMode symbols cpu).LongMode := by
  refine ⟨⟨?_, ?_, ?_⟩, rfl⟩
  · simp [inLongMode, withPaging, getLsbD_bts]
  · simp [inLongMode, withPaging, getLsbD_bts]
  · simp [inLongMode, withPaging]

section Enter

variable {symbols : Symbols} {cpu : Cpu}

/-- Setting the three bits in this order switches to long mode. -/
theorem setCr0_withPaging (protectedMode : cpu.cr0.getLsbD 0) :
    Cpu.setCr0
      { cpu with
        cr3 := 0x1000
        cr4 := bts cpu.cr4 5
        efer := (cpu.efer >>> 32).setWidth 32 ++ bts (cpu.efer.setWidth 32) 8
        gdtLimit := 23#16
        gdtBase := symbols.low symbols.gdt64Begin }
      (bts cpu.cr0 31) = some (withPaging symbols cpu) := by
  refine Cpu.setCr0_of_long ?_ ?_ ?_ ?_
  · simp [getLsbD_bts]
  · simp [getLsbD_bts, protectedMode]
  · simp [getLsbD_bts]
  · show ((cpu.efer >>> 32).setWidth 32 ++
      bts (cpu.efer.setWidth 32) 8).getLsbD 8 = true
    rw [BitVec.getLsbD_append, getLsbD_bts]
    simp

variable (linked : symbols.Linked) (bootstrap : Bootstrap cpu.mem)
include linked bootstrap

/-- The second descriptor, read through the identity mapping. -/
theorem readQuad_code (described : symbols.Described cpu.mem) :
    (withPaging symbols cpu).readQuad
        ((symbols.low symbols.gdt64Begin).setWidth 64 +
          (8 : BitVec 16).setWidth 64) =
      some 0x0020980000000000 := by
  rcases linked.place linked.gdt64Begin with ⟨gdt, _, fits, -, gdtLow⟩
  have place : (symbols.low symbols.gdt64Begin).setWidth 64 +
      (8 : BitVec 16).setWidth 64 = BitVec.ofNat 64 (gdt + 8) := by
    rw [gdtLow]
    apply BitVec.eq_of_toNat_eq
    simp
    omega
  have low : BitVec.ofNat 32 (gdt + 8) =
      symbols.low symbols.gdt64Begin + 8 := by
    rw [gdtLow, BitVec.ofNat_add]
    rfl
  have high : BitVec.ofNat 32 (gdt + 8) + 4 =
      symbols.low symbols.gdt64Begin + 12 := by
    rw [low, BitVec.add_assoc]
    rfl
  rw [@Cpu.readQuad_eq (withPaging symbols cpu) bootstrap rfl _ (gdt + 8)
    (by omega) (Or.inl place), high, low]
  show some (word cpu.mem _ ++ word cpu.mem _) = _
  rw [described.codeLow, described.codeHigh]
  rfl

/-- The far jump finds the 64-bit code segment, and the identity mapping carries
the processor over the switch. -/
theorem entry32mp_eq (described : symbols.Described cpu.mem)
    (protectedMode : cpu.cr0.getLsbD 0) :
    entry32mp symbols cpu = some (inLongMode symbols cpu) := by
  rcases linked.place linked.entry64low with ⟨entry, _, mapped, -, entryLow⟩
  have place : (symbols.low symbols.entry64low).setWidth 64 =
      BitVec.ofNat 64 entry := by
    rw [entryLow]
    apply BitVec.eq_of_toNat_eq
    simp
    omega
  have jump := @Cpu.jmp_eq { withPaging symbols cpu with cs := 8, csLong := true }
    bootstrap rfl _ entry (by omega) (Or.inl place)
  simp only [entry32mp, Cpu.lgdt]
  rw [described.limit, described.base, setCr0_withPaging protectedMode]
  show (withPaging symbols cpu).ljmp 8 (symbols.low symbols.entry64low) = _
  have inTable : ¬ (withPaging symbols cpu).gdtLimit.toNat <
      BitVec.toNat (8 : BitVec 16) + 7 := by
    show ¬ 23 < 15
    decide
  rw [Cpu.ljmp, if_neg inTable]
  exact (congrArg (· >>= _)
    (readQuad_code linked bootstrap described)).trans jump

end Enter

section High

variable {symbols : Symbols} {cpu : Cpu} (linked : symbols.Linked)
variable (bootstrap : Bootstrap cpu.mem) (root : cpu.cr3 = 0x1000)
include linked bootstrap root

theorem entry64low_eq : entry64low symbols cpu =
    some { cpu with rip := symbols.entry64high } := by
  rcases linked.place linked.entry64high with ⟨x, _, mapped, place, -⟩
  exact Cpu.jmp_eq bootstrap root (Nat.lt_of_succ_le mapped) (Or.inr place)

/-- The boot processor goes on to `main`, on the stack below `0x10000`. -/
theorem entry64high_first (first : cpu.ebx = 0) :
    entry64high symbols cpu =
      some { cpu with
        ss := 0, ds := 0, es := 0, fs := 0, gs := 0
        rsp := 0xFFFFFFFF80010000
        rip := symbols.main } := by
  rcases linked.place linked.main with ⟨x, _, mapped, place, -⟩
  rw [entry64high, if_neg (not_not.mpr first)]
  exact @Cpu.jmp_eq
    { cpu with
      ss := 0, ds := 0, es := 0, fs := 0, gs := 0, rsp := 0xFFFFFFFF80010000 }
    bootstrap root _ x (Nat.lt_of_succ_le mapped) (Or.inr place)

/-- Another processor goes on to `mpenter`, on the stack that it finds below
`0x7000`. -/
theorem entry64high_other (other : cpu.ebx ≠ 0) :
    entry64high symbols cpu =
      some { cpu with
        ss := 0, ds := 0, es := 0, fs := 0, gs := 0
        rsp := word cpu.mem 0x6FF4 ++ word cpu.mem 0x6FF0
        rip := symbols.mpenter } := by
  rcases linked.place linked.mpenter with ⟨x, _, mapped, place, -⟩
  have stack : Cpu.readQuad
      { cpu with ss := 0, ds := 0, es := 0, fs := 0, gs := 0 } (0x7000 - 16) =
        some (word cpu.mem 0x6FF4 ++ word cpu.mem 0x6FF0) :=
    @Cpu.readQuad_eq { cpu with ss := 0, ds := 0, es := 0, fs := 0, gs := 0 }
      bootstrap root (0x7000 - 16) 0x6FF0 (by decide) (Or.inl (by decide))
  rw [entry64high, if_pos other]
  refine (congrArg (· >>= _) stack).trans ?_
  exact @Cpu.jmp_eq
    { cpu with
      ss := 0, ds := 0, es := 0, fs := 0, gs := 0
      rsp := word cpu.mem 0x6FF4 ++ word cpu.mem 0x6FF0 }
    bootstrap root _ x (Nat.lt_of_succ_le mapped) (Or.inr place)

end High

/-- What holds when the entry code is through. -/
structure Entered (symbols : Symbols) (cpu cpu' : Cpu) : Prop where
  mem : cpu'.mem = cpu.mem
  longMode : cpu'.LongMode
  root : cpu'.cr3 = 0x1000
  code : cpu'.cs = 8
  data : cpu'.ss = 0 ∧ cpu'.ds = 0 ∧ cpu'.es = 0 ∧ cpu'.fs = 0 ∧ cpu'.gs = 0
  first : cpu.ebx = 0 →
    cpu'.rip = symbols.main ∧ cpu'.rsp = 0xFFFFFFFF80010000
  other : cpu.ebx ≠ 0 → cpu'.rip = symbols.mpenter ∧
    cpu'.rsp = word cpu.mem 0x6FF4 ++ word cpu.mem 0x6FF0

/-- The entry code does not fault and arrives at its C function. -/
theorem enterKernel_spec {symbols : Symbols} {cpu : Cpu}
    (linked : symbols.Linked) (described : symbols.Described cpu.mem)
    (bootstrap : Bootstrap cpu.mem) (protectedMode : cpu.cr0.getLsbD 0) :
    ∃ cpu', enterKernel symbols cpu = some cpu' ∧
      Entered symbols cpu cpu' := by
  have longMode := longMode_inLongMode symbols cpu
  have through (cpu' : Cpu) (last : entry64high symbols
      { inLongMode symbols cpu with rip := symbols.entry64high } = some cpu') :
      enterKernel symbols cpu = some cpu' := by
    rw [enterKernel, entry32mp_eq linked bootstrap described protectedMode]
    refine (congrArg (· >>= _)
      (@entry64low_eq _ (inLongMode symbols cpu) linked bootstrap rfl)).trans ?_
    exact last
  by_cases first : cpu.ebx = 0
  · refine ⟨_, through _ (@entry64high_first _
      { inLongMode symbols cpu with rip := symbols.entry64high } linked bootstrap
      rfl first), ?_⟩
    exact ⟨rfl, longMode, rfl, rfl, ⟨rfl, rfl, rfl, rfl, rfl⟩,
      fun _ => ⟨rfl, rfl⟩, fun other => absurd first other⟩
  · refine ⟨_, through _ (@entry64high_other _
      { inLongMode symbols cpu with rip := symbols.entry64high } linked bootstrap
      rfl first), ?_⟩
    exact ⟨rfl, longMode, rfl, rfl, ⟨rfl, rfl, rfl, rfl, rfl⟩,
      fun zero => absurd zero first, fun _ => ⟨rfl, rfl⟩⟩

end Rt64.Kernel.Entry
