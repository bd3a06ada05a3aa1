import Rt64.Include.Defs

/-!
# The boot loader

`bootmain` reads the first 8192 bytes of the kernel file to a scratch area, looks
for the multiboot header there, reads the image that the header describes to the
place where it belongs, clears what follows it and calls the entry point.  The
code runs in 32-bit mode, so addresses are 32 bits wide; the kernel file starts at
the second sector of the disk.  The memory is that of the C code, without the
variables of the loader itself.
-/

namespace Rt64.Boot.Bootmain

open Rt64.Lib.ByteMemory
open Rt64.Include.Defs

/-! ## The code -/

abbrev PhysAddr : Type := BitVec 32

abbrev PhysMemory : Type := PhysAddr → Byte

abbrev Disk : Type := Nat → Byte

abbrev sectSize : BitVec 32 := 512

/-- A word of memory. -/
def word (mem : PhysMemory) (address : PhysAddr) : BitVec 32 :=
  mem (address + 3) ++ mem (address + 2) ++ mem (address + 1) ++ mem address

/-- The sector that the controller takes from the bytes written to its ports. -/
def lba (offset : BitVec 32) : Nat :=
  (offset.setWidth 8).toNat + ((offset >>> 8).setWidth 8).toNat * 2 ^ 8 +
    ((offset >>> 16).setWidth 8).toNat * 2 ^ 16 +
    (((offset >>> 24 ||| 0xE0#32).setWidth 8) &&& 0xF#8).toNat * 2 ^ 24

/-- `readsect`, with the device ready whenever it is waited for. -/
def readsect (disk : Disk) (dst : PhysAddr) (offset : BitVec 32)
    (mem : PhysMemory) : PhysMemory :=
  fun address =>
    if (address - dst).toNat < 512 then
      disk (512 * lba offset + (address - dst).toNat)
    else mem address

/-- The loop of `readseg`. -/
def readsegLoop (disk : Disk) (epa : PhysAddr) :
    Nat → PhysAddr → BitVec 32 → PhysMemory → Except Halt PhysMemory
  | 0, _, _, _ => .error .fuel
  | fuel + 1, pa, offset, mem =>
      if pa < epa then
        readsegLoop disk epa fuel (pa + sectSize) (offset + 1)
          (readsect disk pa offset mem)
      else .ok mem

def readseg (disk : Disk) (fuel : Nat) (pa : PhysAddr)
    (count offset : BitVec 32) (mem : PhysMemory) : Except Halt PhysMemory :=
  readsegLoop disk (pa + count) fuel (pa - offset % sectSize)
    (offset / sectSize + 1) mem

/-- `stosb` with a zero. -/
def clear (address : PhysAddr) (cnt : BitVec 32) (mem : PhysMemory) :
    PhysMemory :=
  fun target => if (target - address).toNat < cnt.toNat then 0 else mem target

/-- `struct mbheader`. -/
structure MbHeader where
  magic : BitVec 32
  flags : BitVec 32
  checksum : BitVec 32
  headerAddr : BitVec 32
  loadAddr : BitVec 32
  loadEndAddr : BitVec 32
  bssEndAddr : BitVec 32
  entryAddr : BitVec 32

/-- The header whose words are given. -/
def MbHeader.ofWords (words : Nat → BitVec 32) : MbHeader where
  magic := words 0
  flags := words 1
  checksum := words 2
  headerAddr := words 3
  loadAddr := words 4
  loadEndAddr := words 5
  bssEndAddr := words 6
  entryAddr := words 7

abbrev mbootMagic : BitVec 32 := 0x1BADB002

/-- The bytes after the image, if the header names any, become zero. -/
def MbHeader.clearBss (hdr : MbHeader) (mem : PhysMemory) : PhysMemory :=
  if hdr.loadEndAddr < hdr.bssEndAddr then
    clear hdr.loadEndAddr (hdr.bssEndAddr - hdr.loadEndAddr) mem
  else mem

/-- The magic number and the checksum are right. -/
def MbHeader.Valid (hdr : MbHeader) : Prop :=
  hdr.magic = mbootMagic ∧ hdr.magic + hdr.flags + hdr.checksum = 0

instance (hdr : MbHeader) : Decidable hdr.Valid :=
  inferInstanceAs (Decidable (_ ∧ _))

/-- The scratch area. -/
abbrev scratch : PhysAddr := 0x10000

/-- `x[n]`. -/
def scratchWord (mem : PhysMemory) (n : Nat) : BitVec 32 :=
  word mem (scratch + BitVec.ofNat 32 (4 * n))

/-- The header at `x + n`. -/
def headerAt (mem : PhysMemory) (n : Nat) : MbHeader :=
  .ofWords fun i => scratchWord mem (n + i)

/-- The search for the header. -/
def findHeader (mem : PhysMemory) : Option Nat :=
  (List.range (8192 / 4)).find? fun n => (headerAt mem n).Valid

/-- How `bootmain` ends. -/
inductive Outcome where
  | returns (mem : PhysMemory)
  /-- It calls the entry point. -/
  | enters (entry : PhysAddr) (mem : PhysMemory)

/-- `bootmain`; the header is read again from memory each time it is used. -/
def bootmain (disk : Disk) (fuel : Nat) (mem : PhysMemory) :
    Except Halt Outcome := do
  let mem ← readseg disk fuel scratch 8192 0 mem
  match findHeader mem with
  | none => return .returns mem
  | some n =>
      let hdr := headerAt mem n
      if hdr.flags &&& 0x10000 = 0 then return .returns mem
      else if hdr.headerAddr < hdr.loadAddr then return .returns mem
      else if hdr.loadEndAddr < hdr.loadAddr then return .returns mem
      else
        let mem ← readseg disk fuel hdr.loadAddr
          (hdr.loadEndAddr - hdr.loadAddr)
          (BitVec.ofNat 32 (n * 4) - (hdr.headerAddr - hdr.loadAddr)) mem
        let mem := (headerAt mem n).clearBss mem
        return .enters (headerAt mem n).entryAddr mem

/-! ## Sectors -/

/-- The controller gets the number of the sector. -/
theorem lba_eq {offset : BitVec 32} (small : offset.toNat < 2 ^ 28) :
    lba offset = offset.toNat := by
  have top : ((offset >>> 24 ||| 0xE0#32).setWidth 8 &&& 0xF#8).toNat =
      offset.toNat / 2 ^ 24 := by
    have bits : (offset >>> 24 ||| 0xE0#32).setWidth 8 &&& 0xF#8 =
        (offset >>> 24).setWidth 8 &&& 0xF#8 := by
      apply BitVec.eq_of_getLsbD_eq
      intro i bound
      rcases i with _ | _ | _ | _ | _ | _ | _ | _ | i
      all_goals first | omega | simp
    rw [bits, BitVec.toNat_and, BitVec.toNat_setWidth, BitVec.toNat_ushiftRight,
      Nat.shiftRight_eq_div_pow]
    show _ &&& (2 ^ 4 - 1) = _
    rw [Nat.and_two_pow_sub_one_eq_mod]
    omega
  rw [lba, top]
  simp only [BitVec.toNat_setWidth, BitVec.toNat_ushiftRight,
    Nat.shiftRight_eq_div_pow]
  omega

/-- Memory after `k` sectors have been read to `base`. -/
def readSectors (disk : Disk) (base sector k : Nat) (mem : PhysMemory) :
    PhysMemory :=
  fun address =>
    if base ≤ address.toNat ∧ address.toNat < base + 512 * k then
      disk (512 * sector + (address.toNat - base))
    else mem address

theorem readSectors_zero (disk : Disk) (base sector : Nat)
    (mem : PhysMemory) : readSectors disk base sector 0 mem = mem := by
  funext address
  exact if_neg (by omega)

/-- One sector, then the others. -/
theorem readSectors_succ (disk : Disk) (base sector k : Nat)
    (mem : PhysMemory) :
    readSectors disk (base + 512) (sector + 1) k
        (readSectors disk base sector 1 mem) =
      readSectors disk base sector (k + 1) mem := by
  funext address
  simp only [readSectors, Nat.mul_one]
  by_cases first : base ≤ address.toNat ∧ address.toNat < base + 512
  · have whole : base ≤ address.toNat ∧ address.toNat < base + 512 * (k + 1) :=
      ⟨first.1, by omega⟩
    have notLater : ¬ (base + 512 ≤ address.toNat ∧
        address.toNat < base + 512 + 512 * k) := by
      omega
    rw [if_neg notLater, if_pos first, if_pos whole]
  by_cases later : base + 512 ≤ address.toNat ∧
      address.toNat < base + 512 + 512 * k
  · have whole : base ≤ address.toNat ∧ address.toNat < base + 512 * (k + 1) :=
      ⟨by omega, by omega⟩
    have place : 512 * (sector + 1) + (address.toNat - (base + 512)) =
        512 * sector + (address.toNat - base) := by
      omega
    rw [if_pos later, if_pos whole, place]
  · have outside : ¬ (base ≤ address.toNat ∧
        address.toNat < base + 512 * (k + 1)) := by
      rintro ⟨lower, upper⟩
      omega
    rw [if_neg later, if_neg first, if_neg outside]

theorem readsect_eq (disk : Disk) {dst : PhysAddr} {offset : BitVec 32}
    (mem : PhysMemory) (small : offset.toNat < 2 ^ 28)
    (fits : dst.toNat + 512 ≤ 2 ^ 32) :
    readsect disk dst offset mem =
      readSectors disk dst.toNat offset.toNat 1 mem := by
  funext address
  simp only [readsect, readSectors, lba_eq small]
  by_cases inside : dst.toNat ≤ address.toNat ∧
      address.toNat < dst.toNat + 512 * 1
  · have distance : (address - dst).toNat = address.toNat - dst.toNat := by
      bv_omega
    rw [if_pos inside, distance, if_pos (by omega)]
  · rw [if_neg inside, if_neg (by bv_omega)]

/-- The number of sectors that `readseg` reads. -/
def sectorCount (size : Nat) : Nat :=
  (size + 511) / 512

/-- The loop reads whole sectors up to the one with the last byte. -/
theorem readsegLoop_eq (disk : Disk) {epa pa : PhysAddr} {offset : BitVec 32}
    {k fuel : Nat} (count : k = sectorCount (epa.toNat - pa.toNat))
    (enough : k < fuel) (fits : epa.toNat + 511 < 2 ^ 32)
    (small : offset.toNat + k < 2 ^ 28) (mem : PhysMemory) :
    readsegLoop disk epa fuel pa offset mem =
      .ok (readSectors disk pa.toNat offset.toNat k mem) := by
  induction k generalizing pa offset fuel mem with
  | zero =>
      obtain ⟨fuel, rfl⟩ :=
        Nat.exists_eq_succ_of_ne_zero (Nat.ne_zero_of_lt enough)
      have done : ¬ pa < epa := by
        rw [sectorCount] at count
        rw [BitVec.lt_def]
        omega
      rw [readsegLoop, if_neg done, readSectors_zero]
  | succ k induction =>
      obtain ⟨fuel, rfl⟩ :=
        Nat.exists_eq_succ_of_ne_zero (Nat.ne_zero_of_lt enough)
      rw [sectorCount] at count
      have more : pa < epa := by
        rw [BitVec.lt_def]
        omega
      have before := BitVec.lt_def.mp more
      have place : (pa + sectSize).toNat = pa.toNat + 512 := by
        rw [BitVec.toNat_add]
        exact Nat.mod_eq_of_lt (by show pa.toNat + 512 < 2 ^ 32; omega)
      have next : (offset + 1).toNat = offset.toNat + 1 := by
        rw [BitVec.toNat_add]
        exact Nat.mod_eq_of_lt (by show offset.toNat + 1 < 2 ^ 32; omega)
      rw [readsegLoop, if_pos more, readsect_eq disk mem (by omega) (by omega)]
      rw [induction (by rw [sectorCount, place]; omega)
        (Nat.lt_of_succ_lt_succ enough) (by omega), place, next,
        readSectors_succ]

theorem readSectors_inside {disk : Disk} {base sector k : Nat}
    {mem : PhysMemory} {address : PhysAddr} (lower : base ≤ address.toNat)
    (upper : address.toNat < base + 512 * k) :
    readSectors disk base sector k mem address =
      disk (512 * sector + (address.toNat - base)) :=
  if_pos ⟨lower, upper⟩

theorem readSectors_outside {disk : Disk} {base sector k : Nat}
    {mem : PhysMemory} {address : PhysAddr}
    (outside : base ≤ address.toNat → base + 512 * k ≤ address.toNat) :
    readSectors disk base sector k mem address = mem address :=
  if_neg fun inside => absurd inside.2 (Nat.not_lt.mpr (outside inside.1))

/-- `readseg` ends within the fuel that the whole of memory would take. -/
theorem readseg_eq (disk : Disk) {pa : PhysAddr} {count offset : BitVec 32}
    {fuel : Nat} (low : offset.toNat % 512 ≤ pa.toNat)
    (fits : pa.toNat + count.toNat + 511 < 2 ^ 32) (enough : 2 ^ 23 ≤ fuel)
    (mem : PhysMemory) :
    readseg disk fuel pa count offset mem =
      .ok (readSectors disk (pa.toNat - offset.toNat % 512)
        (offset.toNat / 512 + 1)
        (sectorCount (count.toNat + offset.toNat % 512)) mem) := by
  have bound := offset.isLt
  have last : (pa + count).toNat = pa.toNat + count.toNat := by
    rw [BitVec.toNat_add]
    exact Nat.mod_eq_of_lt (by omega)
  have skipped : (offset % sectSize).toNat = offset.toNat % 512 := rfl
  have start : (pa - offset % sectSize).toNat =
      pa.toNat - offset.toNat % 512 := by
    rw [BitVec.toNat_sub_of_le (by rw [BitVec.le_def, skipped]; exact low),
      skipped]
  have sector : (offset / sectSize + 1).toNat = offset.toNat / 512 + 1 := by
    rw [BitVec.toNat_add]
    exact Nat.mod_eq_of_lt (by show offset.toNat / 512 + 1 < 2 ^ 32; omega)
  have size : pa.toNat + count.toNat - (pa.toNat - offset.toNat % 512) =
      count.toNat + offset.toNat % 512 := by
    omega
  have few : sectorCount (count.toNat + offset.toNat % 512) < 2 ^ 23 := by
    rw [sectorCount]
    omega
  rw [readseg, readsegLoop_eq disk (by rw [last, start, size])
    (Nat.lt_of_lt_of_le few enough) (by rw [last]; exact fits)
    (by rw [sector]; omega), start, sector]

/-! ## The header -/

/-- An address in the scratch area. -/
def InScratch (address : PhysAddr) : Prop :=
  0x10000 ≤ address.toNat ∧ address.toNat < 0x12000

/-- The scratch area has the start of the kernel file. -/
def Fetched (disk : Disk) (mem : PhysMemory) : Prop :=
  ∀ address, InScratch address →
    mem address = disk (512 + (address.toNat - 0x10000))

def diskWord (disk : Disk) (offset : Nat) : BitVec 32 :=
  disk (offset + 3) ++ disk (offset + 2) ++ disk (offset + 1) ++ disk offset

/-- The header at word `n` of the kernel file. -/
def diskHeader (disk : Disk) (n : Nat) : MbHeader :=
  .ofWords fun i => diskWord disk (512 + 4 * (n + i))

theorem Fetched.scratchWord {disk : Disk} {mem : PhysMemory}
    (fetched : Fetched disk mem) {n : Nat} (contained : 4 * n + 4 ≤ 8192) :
    scratchWord mem n = diskWord disk (512 + 4 * n) := by
  have byte (i : Nat) (inWord : i < 4) :
      mem (scratch + BitVec.ofNat 32 (4 * n) + BitVec.ofNat 32 i) =
        disk (512 + 4 * n + i) := by
    have place : (scratch + BitVec.ofNat 32 (4 * n) + BitVec.ofNat 32 i).toNat =
        0x10000 + 4 * n + i := by
      have base : scratch.toNat = 0x10000 := rfl
      rw [BitVec.toNat_add, BitVec.toNat_add, BitVec.toNat_ofNat,
        BitVec.toNat_ofNat, base]
      omega
    have position : 512 + (0x10000 + 4 * n + i - 0x10000) = 512 + 4 * n + i := by
      omega
    rw [fetched _ ⟨by omega, by omega⟩, place, position]
  have first := byte 0 (by omega)
  rw [show BitVec.ofNat 32 0 = 0#32 from rfl, BitVec.add_zero] at first
  rw [Bootmain.scratchWord, word, diskWord, first]
  exact congrArg₂ _ (congrArg₂ _ (congrArg₂ _ (byte 3 (by omega))
    (byte 2 (by omega))) (byte 1 (by omega))) rfl

theorem Fetched.headerAt {disk : Disk} {mem : PhysMemory}
    (fetched : Fetched disk mem) {n : Nat} (contained : 4 * n + 32 ≤ 8192) :
    headerAt mem n = diskHeader disk n := by
  have words (i : Nat) (field : i < 8) :
      Bootmain.scratchWord mem (n + i) = diskWord disk (512 + 4 * (n + i)) :=
    fetched.scratchWord (by omega)
  simp only [Bootmain.headerAt, diskHeader, MbHeader.ofWords, words 0 (by omega),
    words 1 (by omega), words 2 (by omega), words 3 (by omega),
    words 4 (by omega), words 5 (by omega), words 6 (by omega),
    words 7 (by omega)]

/-- The search finds the first valid header of the file. -/
theorem Fetched.findHeader {disk : Disk} {mem : PhysMemory}
    (fetched : Fetched disk mem) {n : Nat} (contained : 4 * n + 32 ≤ 8192)
    (valid : (diskHeader disk n).Valid)
    (first : ∀ m, m < n → ¬ (diskHeader disk m).Valid) :
    findHeader mem = some n := by
  rw [Bootmain.findHeader, List.find?_range_eq_some]
  refine ⟨?_, List.mem_range.mpr (by omega), fun m before => ?_⟩
  · rw [fetched.headerAt contained]
    exact decide_eq_true valid
  · rw [fetched.headerAt (by omega)]
    simpa using first m before

/-- A change outside the scratch area keeps the header. -/
theorem Fetched.of_eq {disk : Disk} {mem mem' : PhysMemory}
    (fetched : Fetched disk mem)
    (same : ∀ address, InScratch address → mem' address = mem address) :
    Fetched disk mem' := fun address inside =>
  (same address inside).trans (fetched address inside)

/-- The first read fills the scratch area and changes nothing else. -/
theorem readseg_scratch (disk : Disk) (mem : PhysMemory) {fuel : Nat}
    (enough : 2 ^ 23 ≤ fuel) :
    ∃ mem', readseg disk fuel scratch 8192 0 mem = .ok mem' ∧
      Fetched disk mem' ∧
      ∀ address, ¬ InScratch address → mem' address = mem address := by
  refine ⟨_, readseg_eq disk (by decide) (by decide) enough mem, ?_, ?_⟩
  · intro address inside
    exact readSectors_inside inside.1 inside.2
  · intro address outside
    refine readSectors_outside fun lower => ?_
    show 0x12000 ≤ address.toNat
    exact Nat.not_lt.mp fun upper => outside ⟨lower, upper⟩

/-! ## The image -/

/-- What loading the image may write to. -/
def MbHeader.Written (hdr : MbHeader) (address : PhysAddr) : Prop :=
  hdr.loadAddr.toNat ≤ address.toNat + 511 ∧
    address.toNat <
      max (hdr.loadEndAddr.toNat + 511) hdr.bssEndAddr.toNat

/-- What the boot loader itself uses: the scratch area and the boot block. -/
def Reserved (address : PhysAddr) : Prop :=
  InScratch address ∨ 0x7C00 ≤ address.toNat ∧ address.toNat < 0x7E00

/-- Where the image starts in the kernel file. -/
def MbHeader.fileOffset (hdr : MbHeader) (n : Nat) : Nat :=
  4 * n - (hdr.headerAddr.toNat - hdr.loadAddr.toNat)

/-- The header at word `n` passes the checks, and its ranges are sane. -/
structure MbHeader.Loadable (hdr : MbHeader) (n : Nat) : Prop where
  flags : hdr.flags &&& 0x10000 ≠ 0
  header : hdr.loadAddr.toNat ≤ hdr.headerAddr.toNat
  size : hdr.loadAddr.toNat ≤ hdr.loadEndAddr.toNat
  inFile : hdr.headerAddr.toNat - hdr.loadAddr.toNat ≤ 4 * n
  -- no 32-bit wrap, neither below the image nor above it
  low : hdr.fileOffset n % 512 ≤ hdr.loadAddr.toNat
  high : hdr.loadEndAddr.toNat + 511 < 2 ^ 32
  apart : ∀ address, hdr.Written address → ¬ Reserved address

/-- The image is in memory. -/
structure Loaded (disk : Disk) (hdr : MbHeader) (n : Nat)
    (mem mem' : PhysMemory) : Prop where
  image : ∀ i, i < hdr.loadEndAddr.toNat - hdr.loadAddr.toNat →
    mem' (hdr.loadAddr + BitVec.ofNat 32 i) =
      disk (512 + hdr.fileOffset n + i)
  bss : ∀ address : PhysAddr, hdr.loadEndAddr.toNat ≤ address.toNat →
    address.toNat < hdr.bssEndAddr.toNat → mem' address = 0
  unchanged : ∀ address, ¬ InScratch address → ¬ hdr.Written address →
    mem' address = mem address

section
variable {hdr : MbHeader} {n : Nat} (loadable : hdr.Loadable n)
include loadable

theorem MbHeader.Loadable.apart_scratch {address : PhysAddr}
    (inside : InScratch address) : ¬ hdr.Written address :=
  fun written => loadable.apart address written (.inl inside)

theorem MbHeader.Loadable.not_bss {address : PhysAddr}
    (unwritten : ¬ hdr.Written address) :
    ¬ (hdr.loadEndAddr.toNat ≤ address.toNat ∧
      address.toNat < hdr.bssEndAddr.toNat) := by
  rintro ⟨lower, upper⟩
  have size := loadable.size
  exact unwritten ⟨by omega, lt_max_of_lt_right upper⟩

/-- The second read: the image, and nothing outside the range. -/
theorem MbHeader.Loadable.readseg_image (contained : 4 * n + 32 ≤ 8192)
    (disk : Disk) (mem : PhysMemory) {fuel : Nat} (enough : 2 ^ 23 ≤ fuel) :
    ∃ mem', readseg disk fuel hdr.loadAddr (hdr.loadEndAddr - hdr.loadAddr)
        (BitVec.ofNat 32 (n * 4) - (hdr.headerAddr - hdr.loadAddr)) mem =
          .ok mem' ∧
      (∀ address : PhysAddr, hdr.loadAddr.toNat ≤ address.toNat →
        address.toNat < hdr.loadEndAddr.toNat →
        mem' address = disk
          (512 + hdr.fileOffset n + (address.toNat - hdr.loadAddr.toNat))) ∧
      ∀ address, ¬ hdr.Written address → mem' address = mem address := by
  obtain ⟨-, header, size, inFile, low, high, -⟩ := loadable
  have count : (hdr.loadEndAddr - hdr.loadAddr).toNat =
      hdr.loadEndAddr.toNat - hdr.loadAddr.toNat :=
    BitVec.toNat_sub_of_le size
  have gap : (hdr.headerAddr - hdr.loadAddr).toNat =
      hdr.headerAddr.toNat - hdr.loadAddr.toNat :=
    BitVec.toNat_sub_of_le header
  have place : (BitVec.ofNat 32 (n * 4)).toNat = 4 * n := by
    rw [BitVec.toNat_ofNat]
    omega
  have offset : (BitVec.ofNat 32 (n * 4) -
      (hdr.headerAddr - hdr.loadAddr)).toNat = hdr.fileOffset n := by
    rw [BitVec.toNat_sub_of_le, place, gap, MbHeader.fileOffset]
    rw [BitVec.le_def, place, gap]
    exact inFile
  refine ⟨_, readseg_eq disk (by rw [offset]; exact low)
    (by rw [count]; omega) enough mem, ?_, ?_⟩
  all_goals rw [offset, count]; generalize hdr.fileOffset n = start at low ⊢
  · intro address lower upper
    have position : 512 * (start / 512 + 1) +
        (address.toNat - (hdr.loadAddr.toNat - start % 512)) =
          512 + start + (address.toNat - hdr.loadAddr.toNat) := by
      omega
    rw [readSectors_inside (by omega) (by rw [sectorCount]; omega), position]
  · intro address outside
    refine readSectors_outside fun lower => ?_
    rw [MbHeader.Written] at outside
    rw [sectorCount]
    omega

end

/-- The bss, seen byte by byte. -/
theorem clearBss_eq (hdr : MbHeader) (mem : PhysMemory) (address : PhysAddr) :
    hdr.clearBss mem address =
      if hdr.loadEndAddr.toNat ≤ address.toNat ∧
          address.toNat < hdr.bssEndAddr.toNat then 0
      else mem address := by
  rw [MbHeader.clearBss]
  by_cases some : hdr.loadEndAddr < hdr.bssEndAddr
  · have same : (address - hdr.loadEndAddr).toNat <
          (hdr.bssEndAddr - hdr.loadEndAddr).toNat ↔
        hdr.loadEndAddr.toNat ≤ address.toNat ∧
          address.toNat < hdr.bssEndAddr.toNat := by
      bv_omega
    rw [if_pos some, clear]
    simp only [same]
  · have empty : ¬ (hdr.loadEndAddr.toNat ≤ address.toNat ∧
        address.toNat < hdr.bssEndAddr.toNat) := by
      rw [BitVec.lt_def] at some
      omega
    rw [if_neg some, if_neg empty]

/-- `bootmain` with a header that passes the checks. -/
theorem bootmain_enters {disk : Disk} {fuel n : Nat}
    {mem fetchedMem imageMem : PhysMemory}
    (fetch : readseg disk fuel scratch 8192 0 mem = .ok fetchedMem)
    (found : findHeader fetchedMem = some n)
    (flags : (headerAt fetchedMem n).flags &&& 0x10000 ≠ 0)
    (header : ¬ (headerAt fetchedMem n).headerAddr <
      (headerAt fetchedMem n).loadAddr)
    (size : ¬ (headerAt fetchedMem n).loadEndAddr <
      (headerAt fetchedMem n).loadAddr)
    (load : readseg disk fuel (headerAt fetchedMem n).loadAddr
      ((headerAt fetchedMem n).loadEndAddr - (headerAt fetchedMem n).loadAddr)
      (BitVec.ofNat 32 (n * 4) - ((headerAt fetchedMem n).headerAddr -
        (headerAt fetchedMem n).loadAddr)) fetchedMem = .ok imageMem) :
    bootmain disk fuel mem = .ok (.enters
      (headerAt ((headerAt imageMem n).clearBss imageMem) n).entryAddr
      ((headerAt imageMem n).clearBss imageMem)) := by
  rw [bootmain, fetch, ok_bind, found]
  dsimp only
  rw [if_neg flags, if_neg header, if_neg size, load, ok_bind]
  rfl

/-- As long as the header stays in the scratch area, each time it is read its fields
are those on the disk. -/
theorem bootmain_eq {disk : Disk} {mem fetchedMem imageMem : PhysMemory}
    {n fuel : Nat} (contained : 4 * n + 32 ≤ 8192)
    (valid : (diskHeader disk n).Valid)
    (first : ∀ m, m < n → ¬ (diskHeader disk m).Valid)
    (loadable : (diskHeader disk n).Loadable n)
    (fetch : readseg disk fuel scratch 8192 0 mem = .ok fetchedMem)
    (fetched : Fetched disk fetchedMem)
    (load : readseg disk fuel (diskHeader disk n).loadAddr
      ((diskHeader disk n).loadEndAddr - (diskHeader disk n).loadAddr)
      (BitVec.ofNat 32 (n * 4) -
        ((diskHeader disk n).headerAddr - (diskHeader disk n).loadAddr))
      fetchedMem = .ok imageMem)
    (kept : Fetched disk imageMem)
    (cleared : Fetched disk ((diskHeader disk n).clearBss imageMem)) :
    bootmain disk fuel mem = .ok (.enters (diskHeader disk n).entryAddr
      ((diskHeader disk n).clearBss imageMem)) := by
  have header := Nat.not_lt.mpr loadable.header
  have size := Nat.not_lt.mpr loadable.size
  rw [← BitVec.lt_def] at header size
  have entered := @bootmain_enters disk fuel n mem fetchedMem imageMem fetch
    (fetched.findHeader contained valid first)
  rw [fetched.headerAt contained] at entered
  rw [entered loadable.flags header size load, kept.headerAt contained,
    cleared.headerAt contained]

/-- Boot loader image correctness: with a loadable header, the first valid one of
the kernel file, `bootmain` ends with a call of the entry point, and then the
image is in memory. -/
theorem bootmain_loads_image (disk : Disk) (mem : PhysMemory) (n fuel : Nat)
    (enough : 2 ^ 23 ≤ fuel) (contained : 4 * n + 32 ≤ 8192)
    (valid : (diskHeader disk n).Valid)
    (first : ∀ m, m < n → ¬ (diskHeader disk m).Valid)
    (loadable : (diskHeader disk n).Loadable n) :
    ∃ mem', bootmain disk fuel mem =
        .ok (.enters (diskHeader disk n).entryAddr mem') ∧
      Loaded disk (diskHeader disk n) n mem mem' := by
  obtain ⟨fetchedMem, fetch, fetched, around⟩ := readseg_scratch disk mem enough
  obtain ⟨imageMem, load, image, outside⟩ :=
    loadable.readseg_image contained disk fetchedMem enough
  have frame (address : PhysAddr)
      (unwritten : ¬ (diskHeader disk n).Written address) :
      (diskHeader disk n).clearBss imageMem address = fetchedMem address := by
    rw [clearBss_eq, if_neg (loadable.not_bss unwritten),
      outside address unwritten]
  have kept : Fetched disk imageMem := fetched.of_eq fun address inside =>
    outside address (loadable.apart_scratch inside)
  have cleared : Fetched disk ((diskHeader disk n).clearBss imageMem) :=
    fetched.of_eq fun address inside =>
      frame address (loadable.apart_scratch inside)
  refine ⟨_, bootmain_eq contained valid first loadable fetch fetched load kept
    cleared, ⟨?_, ?_, ?_⟩⟩
  · intro i inImage
    have high := loadable.high
    have place : ((diskHeader disk n).loadAddr + BitVec.ofNat 32 i).toNat =
        (diskHeader disk n).loadAddr.toNat + i := by
      rw [BitVec.toNat_add, BitVec.toNat_ofNat]
      omega
    rw [clearBss_eq, if_neg (by omega), image _ (by omega) (by omega), place,
      Nat.add_sub_cancel_left]
  · intro address lower upper
    rw [clearBss_eq, if_pos ⟨lower, upper⟩]
  · intro address outsideScratch unwritten
    rw [frame address unwritten, around address outsideScratch]

/-- A disk with a small kernel: one word of code, the header, one more word. -/
def sampleDisk : Disk := fun position =>
  if position < 512 then 0
  else
    (sampleWords.getD ((position - 512) / 4) 0 >>>
      (8 * ((position - 512) % 4))).setWidth 8
where
  sampleWords : List (BitVec 32) :=
    [0xF4F4F4F4, mbootMagic, 0x10000, 0xE4514FFE, 0x100004, 0x100000, 0x100028,
      0x100100, 0x100024, 0xF4F4F4F4]

theorem bootmain_loads_image_sample :
    ∃ mem', bootmain sampleDisk (2 ^ 23) (fun _ => 0xFF) =
        .ok (.enters 0x100024 mem') ∧
      mem' 0x100000 = 0xF4 ∧ mem' 0x100028 = 0 ∧ mem' 0x7C00 = 0xFF := by
  have low : (diskHeader sampleDisk 1).loadAddr = 0x100000 := by decide +kernel
  have last : (diskHeader sampleDisk 1).loadEndAddr = 0x100028 := by
    decide +kernel
  have bssEnd : (diskHeader sampleDisk 1).bssEndAddr = 0x100100 := by
    decide +kernel
  have reach {address : PhysAddr}
      (written : (diskHeader sampleDisk 1).Written address) :
      0x100000 ≤ address.toNat + 511 := by
    rw [MbHeader.Written, low] at written
    exact written.1
  obtain ⟨mem', entered, loaded⟩ := bootmain_loads_image sampleDisk
    (fun _ => 0xFF) 1 (2 ^ 23) (Nat.le_refl _) (by decide) (by decide +kernel)
    (by decide +kernel)
    { flags := by decide +kernel
      header := by decide +kernel
      size := by decide +kernel
      inFile := by decide +kernel
      low := by decide +kernel
      high := by decide +kernel
      apart := by
        intro address written reserved
        have above := reach written
        rcases reserved with inside | block
        · have upper := inside.2
          omega
        · omega }
  have entry : (diskHeader sampleDisk 1).entryAddr = 0x100024 := by
    decide +kernel
  rw [entry] at entered
  refine ⟨mem', entered, ?_, ?_, ?_⟩
  · have byte := loaded.image 0 (by decide +kernel)
    rw [low] at byte
    exact byte.trans (by decide +kernel)
  · exact loaded.bss 0x100028 (by rw [last]) (by rw [bssEnd]; decide)
  · exact loaded.unchanged 0x7C00 (by unfold InScratch; decide) fun written =>
      absurd (reach written) (by decide)

end Rt64.Boot.Bootmain
