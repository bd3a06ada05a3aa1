import Rt64.Kernel.BootChain

/-!
# The start of the processors, up to the kernel

The firmware reads the boot block and starts the first processor in it.  The boot
block calls the loader, and the loader enters the kernel.  Another processor is
started in a copy of `bootap.S` below `0x8000`, and enters the kernel that the first
one has loaded.
-/

namespace Rt64.Kernel.Startup

open Rt64.Lib.ByteMemory
open Rt64.Lib.Controller8042
open Rt64.Include.Defs
open Rt64.Boot.Bootasm
open Rt64.Boot.Bootmain
open Rt64.Kernel.Process
open Rt64.Kernel.Spawn
open Rt64.Kernel.Main
open Rt64.Kernel.Entry (enterKernel kernelBegin directMap Bootstrap)
open Rt64.Kernel.BootChain

/-! ## The first processor -/

/-- The first sector is the boot block. -/
structure BlockOnDisk (disk : Disk) (block : Symbols) : Prop where
  start : block.start = 0x7C00
  gdt : 0x7C00 ≤ block.gdt.toNat ∧ block.gdt.toNat + 24 ≤ 0x7E00
  gdtdesc : 0x7C00 ≤ block.gdtdesc.toNat ∧ block.gdtdesc.toNat + 6 ≤ 0x7E00
  limit : (diskWord disk (block.gdtdesc.toNat - 0x7C00)).setWidth 16 = 23#16
  base : diskWord disk (block.gdtdesc.toNat - 0x7C00 + 2) = block.gdt
  code : diskWord disk (block.gdt.toNat - 0x7C00 + 12) ++
    diskWord disk (block.gdt.toNat - 0x7C00 + 8) = codeDesc
  data : diskWord disk (block.gdt.toNat - 0x7C00 + 20) ++
    diskWord disk (block.gdt.toNat - 0x7C00 + 16) = dataDesc

/-- The firmware has read the first sector. -/
def Loaded (disk : Disk) (mem : PhysMemory) : Prop :=
  ∀ i < 512, mem (0x7C00 + BitVec.ofNat 32 i) = disk i

section First

variable {disk : Disk} {block : Symbols} {mem : PhysMemory}

theorem Loaded.word (loaded : Loaded disk mem) {address : PhysAddr}
    (low : 0x7C00 ≤ address.toNat) (high : address.toNat + 4 ≤ 0x7E00) :
    word mem address = diskWord disk (address.toNat - 0x7C00) := by
  apply word_eq_diskWord
  intro i inWord
  have place : address + BitVec.ofNat 32 i =
      0x7C00 + BitVec.ofNat 32 (address.toNat - 0x7C00 + i) := by
    bv_omega
  rw [place, loaded _ (by omega)]

theorem Loaded.stored (loaded : Loaded disk mem) (onDisk : BlockOnDisk disk block) :
    block.Stored mem := by
  have gdt := onDisk.gdt
  have gdtdesc := onDisk.gdtdesc
  have at' (symbol : PhysAddr) (k : BitVec 32) (low : 0x7C00 ≤ symbol.toNat)
      (high : symbol.toNat + k.toNat + 4 ≤ 0x7E00) :
      Boot.Bootmain.word mem (symbol + k) =
        diskWord disk (symbol.toNat - 0x7C00 + k.toNat) := by
    have place : (symbol + k).toNat = symbol.toNat + k.toNat := by
      bv_omega
    rw [loaded.word (by omega) (by omega), place, Nat.sub_add_comm low]
  refine ⟨by omega, by omega, ?_, ?_, ?_, ?_⟩
  · rw [loaded.word (by omega) (by omega)]
    exact onDisk.limit
  · exact (at' _ 2 gdtdesc.1 (by show _ + 2 + 4 ≤ _; omega)).trans onDisk.base
  · rw [quad, BitVec.add_assoc, at' _ (8 + 4) gdt.1 (by show _ + 12 + 4 ≤ _; omega),
      at' _ 8 gdt.1 (by show _ + 8 + 4 ≤ _; omega)]
    exact onDisk.code
  · rw [quad, BitVec.add_assoc, at' _ (16 + 4) gdt.1 (by show _ + 20 + 4 ≤ _; omega),
      at' _ 16 gdt.1 (by show _ + 16 + 4 ≤ _; omega)]
    exact onDisk.data

end First

/-- The processor when the keyboard controller has taken the byte in its buffer. -/
def settled (cpu : Cpu) : Cpu :=
  { cpu with keyboard := cpu.keyboard.take }

/--
What the boot block, the loader and the entry code do one after the other, on the
way to `main`.  The loader sees memory through the bus.
-/
structure Arrives (disk : Disk) (n : Nat) (symbols : Entry.Symbols)
    (block : Symbols) (called : Cpu) : Prop where
  protectedMode : Protected called
  eip : called.eip = block.bootmain
  esp : called.esp = 0x7BFC
  waiting : called.keyboard.input = some (.data, 0xdf)
  line : (settled called).a20 = true
  loads : ∀ fuel ≥ 2 ^ 23, ∃ mem',
    bootmain disk fuel (settled called).view =
      .ok (.enters (symbols.low symbols.mbootEntry) mem') ∧
    ImageIn disk n symbols (Entry.bootTables mem') ∧
    ∀ entry : Entry.Cpu, entry.mem = mem' → entry.cr0 = called.cr0 →
      ∃ cpu', enterKernel symbols (Entry.mbootEntry entry) = some cpu' ∧
        cpu'.LongMode ∧ cpu'.rip = symbols.main ∧
        cpu'.mem = Entry.bootTables mem' ∧
        ∀ i, i < symbols.last.toNat - kernelBegin.toNat →
          cpu'.read (kernelBegin + BitVec.ofNat 64 i) =
            some (if i < symbols.edata.toNat - kernelBegin.toNat then
              imageByte disk n i else 0)

theorem exists_arrives (pace : Pace) {disk : Disk} {n : Nat}
    {symbols : Entry.Symbols} (linked : symbols.Linked)
    (file : KernelFile disk n symbols) {block : Symbols}
    (onDisk : BlockOnDisk disk block) (cpu : Cpu)
    (loaded : Loaded disk cpu.mem) :
    ∃ bound called,
      (∀ fuel ≥ bound, bootasm pace block fuel cpu = some called) ∧
      Arrives disk n symbols block called := by
  have start := onDisk.start
  rcases @exists_bootasm pace block cpu (loaded.stored onDisk)
      (by rw [start]; decide) (by rw [start]; decide) with
    ⟨bound, called, arrived, boots⟩
  have output : (settled called).keyboard.output = 0xdf := arrived.keyboard
  have line : (settled called).a20 = true := by
    rw [Cpu.a20, output]
    decide
  refine ⟨bound, called, boots, arrived.protectedMode, arrived.eip, ?_,
    arrived.waiting, line, fun fuel enough => ?_⟩
  · rw [arrived.esp, start]
    rfl
  rcases loader_enters linked file enough (settled called).view with
    ⟨mem', loads, image, enter⟩
  refine ⟨mem', loads, image, fun entry sameMem sameMode => ?_⟩
  rcases enter entry sameMem
      (by rw [sameMode]; exact arrived.protectedMode.enabled) with
    ⟨cpu', enters, entered, reads⟩
  exact ⟨cpu', enters, entered.longMode, (entered.first rfl).1,
    sameMem ▸ entered.mem, reads⟩

/--
From whatever state the firmware hands over, with the first sector at `0x7C00`, the
boot block calls `bootmain` in protected mode, with interrupts off and segments that
are all of memory.  It does not wait for the keyboard controller to take the byte that
lets the address line 20 through; until then the image would go to the address 0.
Once the controller has taken it, the loader enters the kernel, which arrives at
`main` in long mode, with the image at its link address.
-/
theorem firmware_to_main (pace : Pace) {disk : Disk} {n : Nat}
    {symbols : Entry.Symbols} (linked : symbols.Linked)
    (file : KernelFile disk n symbols) {block : Symbols}
    (onDisk : BlockOnDisk disk block) (cpu : Cpu)
    (loaded : Loaded disk cpu.mem) :
    ∃ bound called,
      (∀ fuel ≥ bound, bootasm pace block fuel cpu = some called) ∧
      Arrives disk n symbols block called ∧
      (called.a20 = false → called.bus 0x100000 = 0) := by
  rcases exists_arrives pace linked file onDisk cpu loaded with
    ⟨bound, called, boots, arrives⟩
  refine ⟨bound, called, boots, arrives, fun off => ?_⟩
  rw [Cpu.bus, off]
  decide

/-- The words of a boot block from its table on. -/
def sampleTable (gdt : BitVec 32) : List (BitVec 32) :=
  [0, 0, 0xFFFF, 0x00CF9A00, 0xFFFF, 0x00CF9200, gdt <<< 16 ||| 23, gdt >>> 16]

/-- The boot block and the file of a small kernel. -/
def sampleDisk : Disk := fun position =>
  if position < 512 then
    let words := List.replicate 24 0xF4F4F4F4#32 ++ sampleTable 0x7C60
    (words.getD (position / 4) 0 >>> (8 * (position % 4))).setWidth 8
  else sampleFile position

def sampleBlock : Symbols where
  start := 0x7C00
  start32 := 0x7C31
  after := 0x7C4D
  gdt := 0x7C60
  gdtdesc := 0x7C78
  bootmain := 0x7D00

theorem sampleDisk_kernelFile : KernelFile sampleDisk 0 sampleSymbols where
  contained := by decide
  header := by
    simp only [diskHeader, MbHeader.ofWords, Entry.Symbols.header,
      MbHeader.mk.injEq]
    decide +kernel
  first := fun m before => absurd before (Nat.not_lt_zero m)
  limit := by decide +kernel
  base := by decide +kernel
  codeLow := by decide +kernel
  codeHigh := by decide +kernel

theorem sampleDisk_block : BlockOnDisk sampleDisk sampleBlock where
  start := rfl
  gdt := by decide
  gdtdesc := by decide
  limit := by decide +kernel
  base := by decide +kernel
  code := by decide +kernel
  data := by decide +kernel

/-- The controller needs two reads of the status for every byte. -/
def samplePace : Pace where
  delay _ := 2
  others _ := 0xFF

/-- The firmware has left interrupts on, and bytes for the controller. -/
def firmwareCpu : Cpu where
  mem address := sampleDisk (address.toNat - 0x7C00)
  keyboard :=
    { input := some (.data, 0xED)
      busy := 5
      written := 0
      reads := 0
      expects := false
      output := 0xDD }
  interrupts := true
  cr0 := 0x10
  gdtLimit := 0
  gdtBase := 0
  cs := ⟨0, 0, 0xFFFF, true, true, false⟩
  ds := ⟨0x40, 0x400, 0xFFFF, false, true, false⟩
  es := ⟨0x40, 0x400, 0xFFFF, false, true, false⟩
  ss := ⟨0, 0, 0xFFFF, false, true, false⟩
  fs := .null 0
  gs := .null 0
  ebx := 0
  esp := 0x6F00
  eip := 0x7C00

theorem firmwareCpu_loaded : Loaded sampleDisk firmwareCpu.mem := by
  intro i inSector
  have place : (0x7C00 + BitVec.ofNat 32 i).toNat - 0x7C00 = i := by
    bv_omega
  dsimp only [firmwareCpu]
  rw [place]

theorem firmware_to_main_sample :
    ∃ bound called,
      (∀ fuel ≥ bound, bootasm samplePace sampleBlock fuel firmwareCpu =
        some called) ∧ called.eip = 0x7D00 ∧
      ∃ mem', bootmain sampleDisk (2 ^ 23) (settled called).view =
        .ok (.enters 0x100020 mem') := by
  rcases firmware_to_main samplePace sampleSymbols_linked sampleDisk_kernelFile
      sampleDisk_block firmwareCpu firmwareCpu_loaded with
    ⟨bound, called, boots, arrives, _⟩
  rcases arrives.loads (2 ^ 23) (Nat.le_refl _) with ⟨mem', loads, _⟩
  exact ⟨bound, called, boots, arrives.eip, mem', loads⟩

/-! ## Another processor -/

/-- The place for `bootap.S` and its data. -/
def InLowPages (address : PhysAddr) : Prop :=
  0x6000 ≤ address.toNat ∧ address.toNat < 0x8000

section Other

variable {disk : Disk} {n : Nat} {symbols : Entry.Symbols}
variable {before after : PhysMemory}

theorem bootstrap_of_same (same : ∀ address, ¬ InLowPages address →
    after address = before address) (bootstrap : Bootstrap before) :
    Bootstrap after := by
  intro address low high
  rw [same address (fun inside => by have := inside.1; omega)]
  exact bootstrap address low high

theorem imageIn_of_same (linked : symbols.Linked)
    (same : ∀ address, ¬ InLowPages address → after address = before address)
    (image : ImageIn disk n symbols before) : ImageIn disk n symbols after := by
  intro i bound
  have start : kernelBegin.toNat = 0xFFFFFFFF80100000 := by decide
  have base : kernbase.toNat = 0xFFFFFFFF80000000 := by decide
  have ordered := linked.ordered
  have inMemory := linked.inMemory
  have place : (BitVec.ofNat 32 (0x100000 + i)).toNat = 0x100000 + i := by
    rw [BitVec.toNat_ofNat]
    omega
  rw [same _ (fun inside => by have := inside.2; omega)]
  exact image i bound

theorem word_setWord_apart {mem : PhysMemory} {place address : PhysAddr}
    {value : BitVec 32}
    (apart : ∀ i < 4, ¬ (address + BitVec.ofNat 32 i - place).toNat < 4) :
    word (setWord place value mem) address = word mem address := by
  have byte (i : Nat) (inWord : i < 4) :
      setWord place value mem (address + BitVec.ofNat 32 i) =
        mem (address + BitVec.ofNat 32 i) := if_neg (apart i inWord)
  have first := byte 0 (by decide)
  rw [show BitVec.ofNat 32 0 = 0#32 from rfl, BitVec.add_zero] at first
  rw [word, word, first]
  exact congrArg₂ _ (congrArg₂ _ (congrArg₂ _ (byte 3 (by decide))
    (byte 2 (by decide))) (byte 1 (by decide))) rfl

end Other

/--
A processor that is started at `0x7000`, in a copy of `bootap.S`, after the first one
has come through `main`: if only the two pages around it have been written since, and
the stack that it finds is in them, it calls the function that it finds; the entry
code then brings it to `mpenter` in long mode, with the stack pointer that was left
for it below `0x7000`.
-/
theorem other_processor_to_mpenter {disk : Disk} {n : Nat}
    {symbols : Entry.Symbols} {layout : Layout} (linked : symbols.Linked)
    (file : KernelFile disk n symbols) (arranged : Arranged symbols layout)
    (bootable : Bootable layout) {mem : PhysMemory}
    (image : ImageIn disk n symbols mem) (bootstrap : Bootstrap mem)
    {index : Byte} {fuel : Nat} {kernel : KernelState}
    (booted : main layout index fuel (directMap mem) = .ok kernel)
    {block : Symbols} (start : block.start = 0x7000) {cpu : Cpu}
    (same : ∀ address, ¬ InLowPages address →
      cpu.mem address = physical kernel.mem address)
    (stored : block.Stored cpu.mem) (line : cpu.a20 = true)
    (stack : 0x6004 ≤ (word cpu.mem 0x6FFC).toNat ∧
        (word cpu.mem 0x6FFC).toNat ≤ 0x6FF0 ∨
      0x7004 ≤ (word cpu.mem 0x6FFC).toNat ∧
        (word cpu.mem 0x6FFC).toNat ≤ 0x8000) :
    ∃ called, bootap block cpu = some called ∧ Protected called ∧
      called.eip = word cpu.mem 0x6FF8 ∧
      ∀ entry : Entry.Cpu, entry.mem = called.mem → entry.cr0 = called.cr0 →
        entry.ebx = called.ebx →
        ∃ cpu', enterKernel symbols entry = some cpu' ∧ cpu'.LongMode ∧
          cpu'.rip = symbols.mpenter ∧
          cpu'.rsp = word cpu.mem 0x6FF4 ++ word cpu.mem 0x6FF0 := by
  have atStack : block.start - 4 = 0x6FFC := by rw [start]; rfl
  have atTarget : block.start - 8 = 0x6FF8 := by rw [start]; rfl
  rcases exists_bootap stored line with ⟨called, arrived, boots⟩
  have mem' := arrived.mem
  rw [atStack] at mem'
  generalize word cpu.mem 0x6FFC = esp at stack mem'
  have kept (address : PhysAddr) (outside : ¬ InLowPages address) :
      called.mem address = physical kernel.mem address := by
    have apart : ¬ (address - (esp - 4)).toNat < 4 := by
      intro inside
      apply outside
      refine ⟨?_, ?_⟩ <;> bv_omega
    rw [mem']
    exact (if_neg apart).trans (same address outside)
  have bootstrap' := bootstrap_of_same kept
    (bootstrap_main linked arranged bootable booted bootstrap)
  have described := (imageIn_of_same linked kept
    (image.main linked arranged bootable booted)).described linked file
  refine ⟨called, boots, arrived.protectedMode, atTarget ▸ arrived.eip, ?_⟩
  intro entry sameMem sameMode sameEbx
  have nonzero : entry.ebx ≠ 0 := by
    rw [sameEbx, arrived.ebx]
    decide
  rcases @Entry.enterKernel_spec symbols entry linked (sameMem ▸ described)
      (sameMem ▸ bootstrap')
      (by rw [sameMode]; exact arrived.protectedMode.enabled) with
    ⟨cpu', enters, entered⟩
  refine ⟨cpu', enters, entered.longMode, (entered.other nonzero).1, ?_⟩
  rw [(entered.other nonzero).2, sameMem, mem']
  have high : word (setWord (esp - 4) block.after cpu.mem) 0x6FF4 =
      word cpu.mem 0x6FF4 := word_setWord_apart fun i inWord => by bv_omega
  have low : word (setWord (esp - 4) block.after cpu.mem) 0x6FF0 =
      word cpu.mem 0x6FF0 := word_setWord_apart fun i inWord => by bv_omega
  rw [high, low]

/-- A copy of `bootap.S` with what was left for the processor before it. -/
def lowPages : PhysMemory := fun address =>
  let words := [0x80104000#32, 0xFFFFFFFF, 0x100030, 0x8000] ++
    List.replicate 16 0xF4F4F4F4 ++ sampleTable 0x7040
  let offset := address.toNat - 0x6FF0
  (words.getD (offset / 4) 0 >>> (8 * (offset % 4))).setWidth 8

def otherBlock : Symbols where
  start := 0x7000
  start32 := 0x7018
  after := 0x703E
  gdt := 0x7040
  gdtdesc := 0x7058
  bootmain := 0

/-- The state after a startup message for the page at `0x7000`. -/
def otherCpu (mem : PhysMemory) : Cpu :=
  { firmwareCpu with
    mem := fun address =>
      if 0x6000 ≤ address.toNat ∧ address.toNat < 0x8000 then lowPages address
      else mem address
    keyboard := { firmwareCpu.keyboard with output := 0xDF }
    cs := ⟨0x700, 0x7000, 0xFFFF, true, true, false⟩
    eip := 0 }

theorem word_otherCpu (mem : PhysMemory) {address : PhysAddr}
    (low : 0x6000 ≤ address.toNat) (high : address.toNat + 4 ≤ 0x8000) :
    word (otherCpu mem).mem address = word lowPages address := by
  have byte (k : BitVec 32) (small : k.toNat < 4) :
      (otherCpu mem).mem (address + k) = lowPages (address + k) :=
    if_pos (by bv_omega)
  have first : (otherCpu mem).mem address = lowPages address :=
    if_pos (by omega)
  rw [word, word, byte 3 (by decide), byte 2 (by decide), byte 1 (by decide),
    first]

theorem otherBlock_stored (mem : PhysMemory) :
    otherBlock.Stored (otherCpu mem).mem where
  gdtLow := by decide
  gdtdescLow := by decide
  limit := by
    rw [word_otherCpu mem (by decide) (by decide)]
    decide +kernel
  base := by
    rw [word_otherCpu mem (by decide) (by decide)]
    decide +kernel
  code := by
    rw [quad, word_otherCpu mem (by decide) (by decide),
      word_otherCpu mem (by decide) (by decide)]
    decide +kernel
  data := by
    rw [quad, word_otherCpu mem (by decide) (by decide),
      word_otherCpu mem (by decide) (by decide)]
    decide +kernel

theorem other_processor_to_mpenter_sample :
    ∃ (kernel : KernelState) (called : Cpu),
      bootap otherBlock (otherCpu (physical kernel.mem)) = some called ∧
      called.eip = 0x100030 ∧
      ∃ cpu', enterKernel sampleSymbols
          { Entry.loaderCpu with
            mem := called.mem, cr0 := called.cr0, ebx := called.ebx } =
        some cpu' ∧ cpu'.rip = 0xFFFFFFFF80100084 ∧
        cpu'.rsp = 0xFFFFFFFF80104000 := by
  rcases loader_enters sampleSymbols_linked sampleFile_kernelFile
    (Nat.le_refl (2 ^ 23)) (fun _ => 0) with ⟨mem', _, image, _⟩
  rcases main_returns bssLayout_bootable 0
    (directMap (Entry.bootTables mem')) with ⟨kernel, booted⟩
  have found := @word_otherCpu (physical kernel.mem)
  rcases @other_processor_to_mpenter _ _ _ _ sampleSymbols_linked
      sampleFile_kernelFile ⟨rfl, by decide⟩ bssLayout_bootable _ image
      (Entry.bootstrap_bootTables mem') _ _ _ booted otherBlock rfl
      (otherCpu (physical kernel.mem)) (fun _ outside => if_neg outside)
      (otherBlock_stored _) (by decide : (0xDF#8).getLsbD 1 = true)
      (Or.inr (by
        rw [found (by decide) (by decide)]
        decide +kernel)) with
    ⟨called, boots, _, eip, enter⟩
  rcases enter { Entry.loaderCpu with
      mem := called.mem, cr0 := called.cr0, ebx := called.ebx } rfl rfl rfl with
    ⟨cpu', enters, _, rip, rsp⟩
  refine ⟨kernel, called, boots, ?_, cpu', enters, rip, ?_⟩
  · rw [eip, found (by decide) (by decide)]
    decide +kernel
  · rw [rsp, found (by decide) (by decide), found (by decide) (by decide)]
    decide +kernel

end Rt64.Kernel.Startup
