import Rt64.Kernel.Descriptors
import Rt64.Kernel.Startup
import Rt64.Kernel.Uart

/-!
# The start of the kernel, with its devices

`main` of `main.c` up to the first `spawn`, with all that it calls: the serial port,
the frames, the page tables, the table of processors, the local APIC, the
descriptor tables, the idle process and the address space of the users, each with
the message that it prints.

`acpiinit` is the one for `CONFIG_DUMMY_ACPI`, which is defined.  It makes up a
processor whose local APIC has the number 0, and does not look at the real one.
-/

namespace Rt64.Kernel.Bringup

open Rt64.Lib.ByteMemory
open Rt64.Lib.Numeral
open Rt64.Lib.Transition
open Rt64.Lib.Uart8250
open Rt64.Lib.WordArray
open Rt64.Include.Defs
open Rt64.Include.Access
open Rt64.Kernel.Kalloc (Heap frameCount memoryEnd memoryEnd_eq kallocinit_spec)
open Rt64.Kernel.PageTree
open Rt64.Kernel.PagingRange
open Rt64.Kernel.Process (Layout KernelState)
open Rt64.Kernel.Spawn
open Rt64.Kernel.Isolation
open Rt64.Kernel.Main (Bootable Initial start procinit_outside)
open Rt64.Kernel.Console (Args vcprintf intArg signedField StringAt)
open Rt64.Kernel.ConsoleFormat
open Rt64.Kernel.Cga (Screen Tape Shown position)
open Rt64.Kernel.Uart (Console Open cprintf chars announcement announced)
open Rt64.Kernel.Acpi (Smp Indexed)
open Rt64.Kernel.Lapic (Registers lapicid idIndex)
open Rt64.Kernel.Trapinit
open Rt64.Kernel.Descriptors
open Rt64.Kernel.BootChain
open Rt64.Kernel.Startup (BlockOnDisk Loaded settled exists_arrives)
open Rt64.Kernel.Entry (directMap kernelBegin)
open Rt64.Boot.Bootmain (Disk PhysMemory)
open Rt64.Lib

/-! ## The code -/

/-- The messages up to the first `spawn`, by the file that prints them. -/
inductive Message where
  | kalloc
  | paging
  | lapic
  | trap
  | proc
  | uvm

def Message.format : Message → String
  | kalloc => "kalloc: inited %d free pages [%x - %x]\n"
  | paging => "paging: bsp init\n"
  | lapic => "lapic: init ID=%d\n"
  | trap => "trap: init\n"
  | proc => "[%d] proc: init\n"
  | uvm => "uvminit: mapped %p ~ %p as PF_U\n"

/-- Where the linker has put the section of the string literals, the literals in
it, `tls`, `idt` and the handlers in `vectors`. -/
structure Program where
  rodata : Addr
  rodataSz : Nat
  literal : Message → Addr
  tls : Addr
  idt : Addr
  vectors : Nat → Addr

/-- The section of the literals. -/
def Program.view (program : Program) (mem : Memory) : View := fun address =>
  if Within program.rodata program.rodataSz address then some (mem address)
  else none

/-- The variables of the kernel, and what `main` sets up. -/
structure Board where
  kernel : KernelState
  console : Console
  lapic : Registers
  rflags : BitVec 64
  smp : Smp
  curcpu : Nat
  fsbase : Addr
  idtr : TableRegister
  gdtr : TableRegister
  /-- The segment that `ltr` finds. -/
  tr : Option SystemDescriptor

namespace Board

def heap (board : Board) : Heap :=
  board.kernel.image.heap

def mem (board : Board) : Memory :=
  board.kernel.image.heap.mem

def setHeap (board : Board) (heap : Heap) : Board :=
  { board with
    kernel := { board.kernel with image := { board.kernel.image with heap } } }

end Board

section Code

variable (pace : Pace) (layout : Layout) (program : Program) (fuel : Nat)

/-- `cprintf` of a message, with its arguments. -/
def say (message : Message) (args : List (BitVec 64)) (board : Board) :
    Except Stop Board := do
  let console ← cprintf pace fuel
    ⟨program.view board.mem, program.literal message, fun i => args.getD i 0⟩
    board.console
  return { board with console }

def uartearlyinit (board : Board) : Board :=
  { board with
    console :=
      { board.console with
        serial := Uart.uartearlyinit pace board.console.serial } }

def kallocinit (board : Board) : Except Stop Board := do
  let heap ← (Kalloc.kallocinit layout.last fuel board.heap).mapError .halt
  say pace program fuel .kalloc
    [heap.nfreepages.setWidth 64, layout.last, p2v maxPhysMem]
    (board.setHeap heap)

def paginginitBsp (board : Board) : Except Stop Board := do
  let (kpml4, heap) ← (Paging.paginginitBsp board.heap).mapError .halt
  let image := { board.kernel.image with heap, kpml4, cr3 := v2p kpml4 }
  say pace program fuel .paging []
    { board with kernel := { board.kernel with image } }

/-- `CONFIG_DUMMY_ACPI_NCPUS`. -/
abbrev configDummyAcpiNcpus : Nat := 1

def acpiinit (board : Board) : Except Stop Board := do
  let smp ← ((List.range configDummyAcpiNcpus).foldlM
    (fun (smp : Smp) _ => smp.addCpu .acpiinit (BitVec.ofNat 8 smp.ncpu))
    board.smp).mapError .halt
  return { board with smp }

def lapicinit (board : Board) : Except Stop Board := do
  let lapic := Lapic.lapicinit board.lapic
  let id ← (lapicid lapic board.rflags).mapError .halt
  say pace program fuel .lapic [id.setWidth 64] { board with lapic }

/-- The array `idt`, as it is in memory. -/
def idtAt (mem : Memory) (base : Addr) : Idt :=
  element mem base 4

/-- The gates are written to the array. -/
def setupGates (mem : Memory) : Memory :=
  storeElements mem program.idt 4
    (setupIdt program.vectors (idtAt mem program.idt)) 1024

def trapinit (board : Board) : Except Stop Board := do
  let booted ← (Trapinit.trapinit program.tls board.lapic board.rflags board.smp
    (setupGates program board.mem)).mapError .halt
  let gdtr := loadTable booted.tls (8 * 8)
  let board := board.setHeap { board.heap with mem := booted.mem }
  say pace program fuel .trap []
    { board with
      curcpu := booted.curcpu
      fsbase := booted.tls + 2048
      idtr := loadTable program.idt 4096
      gdtr
      tr := selectSystem booted.mem gdtr (segTss <<< 3) }

def procinit (board : Board) : Except Stop Board :=
  let index := (board.smp.cpus board.curcpu).index
  say pace program fuel .proc [index.setWidth 64]
    { board with kernel := Process.procinit layout index board.kernel }

def uvminit (board : Board) : Except Stop Board := do
  let (upml4, heap) ← (Paging.uvminit board.kernel.image.kpml4 layout.ubegin
    layout.uend board.heap).mapError .halt
  let image := { board.kernel.image with heap, upml4 }
  say pace program fuel .uvm [layout.ubegin, layout.uend]
    { board with kernel := { board.kernel with image } }

/-- `main` up to the first `spawn`. -/
def main (board : Board) : Except Stop Board := do
  let board := uartearlyinit pace board
  let board ← kallocinit pace layout program fuel board
  let board ← paginginitBsp pace program fuel board
  let board ← acpiinit board
  let board ← lapicinit pace program fuel board
  let board ← trapinit pace program fuel board
  let board ← procinit pace layout program fuel board
  uvminit pace layout program fuel board

end Code

/-! ## The messages -/

/-- A literal, or a conversion that is not a string. -/
def isClosed : Token → Bool
  | .literal _ _ => true
  | .conversion _ .s => false
  | .conversion width _ => width.value ≤ 33

theorem matches_of_isClosed {args : Args} {strings : Nat → List Byte} {view : View}
    {tokens : List Token} (closed : tokens.all isClosed = true) (ap : Nat) :
    Matches args strings view tokens ap := by
  induction tokens generalizing ap with
  | nil => trivial
  | cons token tokens induction =>
      rw [List.all_cons, Bool.and_eq_true] at closed
      refine ⟨?_, induction closed.2 _⟩
      cases token with
      | literal c plain => trivial
      | conversion width kind =>
          refine ⟨fun _ => ?_, ?_⟩
          · cases kind with
            | s => cases closed.1
            | _ => exact of_decide_eq_true closed.1
          · rintro rfl
            cases closed.1

theorem plain_newline : ∀ c ∈ ascii "\n", c ≠ 0 ∧ c ≠ charByte '%' := by
  decide +kernel

namespace Message

/-- The format, taken apart. -/
def tokens : Message → List Token
  | kalloc =>
      literals (ascii "kalloc: inited ") (by decide +kernel) ++
        .conversion [] .d ::
          (literals (ascii " free pages [") (by decide +kernel) ++
            .conversion [] .x :: (literals (ascii " - ") (by decide +kernel) ++
              .conversion [] .x :: literals (ascii "]\n") (by decide +kernel)))
  | paging => literals (ascii "paging: bsp init\n") (by decide +kernel)
  | lapic =>
      literals (ascii "lapic: init ID=") (by decide +kernel) ++
        .conversion [] .d :: literals (ascii "\n") plain_newline
  | trap => literals (ascii "trap: init\n") (by decide +kernel)
  | proc =>
      literals (ascii "[") (by decide +kernel) ++
        .conversion [] .d :: literals (ascii "] proc: init\n") (by decide +kernel)
  | uvm =>
      literals (ascii "uvminit: mapped ") (by decide +kernel) ++
        .conversion [] .p :: (literals (ascii " ~ ") (by decide +kernel) ++
          .conversion [] .p :: literals (ascii " as PF_U\n") (by decide +kernel))

/-- What is printed. -/
def line (message : Message) (args : List (BitVec 64)) : List Byte :=
  render (fun i => args.getD i 0) (fun _ => []) message.tokens 0

theorem text_tokens (message : Message) :
    Format.text ⟨message.tokens, none⟩ = ascii message.format := by
  cases message <;> decide +kernel

theorem prints {message : Message} {view : View} {fmt : Addr} (nonnull : fmt ≠ 0)
    (stored : StringAt view fmt (ascii message.format))
    (args : List (BitVec 64)) :
    Prints view fmt (fun i => args.getD i 0) (message.line args)
      (taken message.tokens) := by
  refine @prints_format (fun i => args.getD i 0) (fun _ => []) view fmt
    ⟨message.tokens, none⟩ nonnull (matches_of_isClosed ?_ 0)
    (message.text_tokens ▸ stored)
  cases message <;> decide +kernel

end Message

/-- The literals are in their section. -/
def Spelled (program : Program) (mem : Memory) : Prop :=
  ∀ message, program.literal message ≠ 0 ∧
    StringAt (program.view mem) (program.literal message) (ascii message.format)

/-- The literals are those of the start, and the console has printed the log. -/
structure Logged (pace : Pace) (program : Program) (mem : Memory)
    (device : Option Uart) (tape : Tape) (log : List Byte) (board : Board) :
    Prop where
  view : program.view board.mem = program.view mem
  isOpen : Open (device.map (sendAll pace 128 log))
    ((chars log).foldl Tape.put tape) board.console

section Messages

variable {pace : Pace} {program : Program} {mem : Memory} {fuel : Nat}
variable {device : Option Uart} {tape : Tape} {log : List Byte} {board : Board}

/-- With the fuel, the message is printed whole. -/
def Speaks (program : Program) (mem : Memory) (fuel : Nat) (message : Message)
    (args : List (BitVec 64)) : Prop :=
  vcprintf (program.view mem) fuel (program.literal message)
    (fun i => args.getD i 0) = .ok (message.line args, taken message.tokens)

theorem Spelled.speaks (spelled : Spelled program mem) (message : Message)
    (args : List (BitVec 64)) :
    ∃ bound, ∀ fuel ≥ bound, Speaks program mem fuel message args :=
  Message.prints (spelled message).1 (spelled message).2 args

theorem Logged.say (logged : Logged pace program mem device tape log board)
    {message : Message} {args : List (BitVec 64)}
    (speaks : Speaks program mem fuel message args) :
    ∃ console, Bringup.say pace program fuel message args board =
        .ok { board with console } ∧
      Logged pace program mem device tape (log ++ message.line args)
        { board with console } := by
  rcases @Uart.Open.consputs pace _ _ _ logged.isOpen (message.line args) with
    ⟨console, printed, isOpen⟩
  rw [Uart.map_sendAll_append, ← Uart.chars_append] at isOpen
  refine ⟨console, ?_, logged.view, isOpen⟩
  have formatted : cprintf pace fuel ⟨program.view board.mem,
      program.literal message, fun i => args.getD i 0⟩ board.console =
        .ok console := by
    rw [cprintf, logged.view, speaks, bind_ok]
    exact printed
  rw [Bringup.say, formatted, bind_ok]
  rfl

/-- A change of memory outside of the literals. -/
theorem Logged.congr (logged : Logged pace program mem device tape log board)
    {board' : Board} (console : board'.console = board.console)
    (agree : ∀ address, Within program.rodata program.rodataSz address →
      board'.mem address = board.mem address) :
    Logged pace program mem device tape log board' := by
  refine ⟨?_, console ▸ logged.isOpen⟩
  rw [← logged.view]
  funext address
  simp only [Program.view]
  split
  · rename_i inside
    rw [agree address inside]
  · rfl

end Messages

/-! ## The steps -/

/-- Where the linker puts things: the literals, the gates and the pages of
thread-local storage are in the image, apart from each other and from the process
table. -/
structure Assembled (layout : Layout) (program : Program) : Prop where
  bootable : Bootable layout
  rodata : Placed program.rodata program.rodataSz layout.last
  tls : Placed program.tls 32768 layout.last
  idt : Placed program.idt 4096 layout.last
  rodataProcs : Apart program.rodata program.rodataSz layout.procs 1152
  rodataTls : Apart program.rodata program.rodataSz program.tls 32768
  rodataIdt : Apart program.rodata program.rodataSz program.idt 4096
  tlsProcs : Apart program.tls 32768 layout.procs 1152
  tlsIdt : Apart program.tls 32768 program.idt 4096
  idtProcs : Apart program.idt 4096 layout.procs 1152

/-- The tables that `paginginit_bsp` makes, with frames for a copy of them. -/
def Mapped (last : Addr) (heap : Heap) (kpml4 : Addr) : Prop :=
  ∃ free allocated, WellFormed last heap free allocated kpml4 ∧
    Plain heap.mem kpml4 ∧
    (∀ va, Canonical va → leaf heap.mem kpml4 va = kernelLeaf va) ∧
    (tables heap.mem 4 kpml4).length ≤ free.length

theorem Mapped.congr {last : Addr} {heap : Heap} {kpml4 : Addr}
    (mapped : Mapped last heap kpml4) {mem : Memory}
    (agree : ∀ address, last.toNat ≤ address.toNat →
      mem address = heap.mem address) :
    Mapped last { heap with mem } kpml4 := by
  rcases mapped with ⟨free, allocated, wellFormed, plain, leaves, room⟩
  rcases wellFormed_congr wellFormed agree with
    ⟨sameTables, wellFormed', sameResolve⟩
  refine ⟨free, allocated, wellFormed', fun va => ?_, fun va canonical => ?_,
    sameTables.symm ▸ room⟩
  · rw [sameResolve]
    exact plain va
  · rw [leaf, sameResolve]
    exact leaves va canonical

/-- `trapinit` writes to the page of the processor only. -/
theorem setupPage_outside (page : Addr) (mem : Memory) {address : Addr}
    (outside : ¬ Within page 4096 address) :
    setupPage page mem address = mem address := by
  have word {offset : Nat} (fits : offset + 8 ≤ 4096) :
      ¬ Within (page + BitVec.ofNat 64 offset) 8 address :=
    fun inside => outside (inside.of_offset fits (by omega))
  have half : ¬ Within (tssAddr page 16) 4 address :=
    fun inside => outside (inside.of_offset (by decide) (by decide))
  have entry {mem : Memory} {i : BitVec 64} (value : BitVec 64)
      (inTable : i.toNat < 8) :
      store64 mem (gdtAddr page i) value address = mem address :=
    store64_outside _ _ _ _ (word (by omega))
  rw [setupPage, entry _ (by decide), entry _ (by decide), entry _ (by decide),
    entry _ (by decide), entry _ (by decide), entry _ (by decide),
    entry _ (by decide), entry _ (by decide)]
  exact store_outside _ _ _ _ _ half

theorem setupGates_outside (program : Program) (mem : Memory) {address : Addr}
    (outside : ¬ Within program.idt 4096 address) :
    setupGates program mem address = mem address :=
  storeElements_outside outside (by decide)

/-- The pages that `trapinit` writes are a part of the image. -/
theorem traps_above {layout : Layout} {program : Program}
    (assembled : Assembled layout program) (mem : Memory) {address : Addr}
    (high : layout.last.toNat ≤ address.toNat) :
    setupPage program.tls (setupGates program mem) address = mem address := by
  have outside : ¬ Within program.tls 4096 address := fun inside => by
    have below := assembled.tls.below_last (inside.trans_le (by decide))
    omega
  have outside' : ¬ Within program.idt 4096 address := fun inside => by
    have below := assembled.idt.below_last inside
    omega
  exact (setupPage_outside _ _ outside).trans (setupGates_outside _ _ outside')

/-- The descriptors are not written over the gates. -/
theorem traps_gates {layout : Layout} {program : Program}
    (assembled : Assembled layout program) (mem : Memory) {address : Addr}
    (inside : Within program.idt 4096 address) :
    setupPage program.tls (setupGates program mem) address =
      setupGates program mem address :=
  setupPage_outside _ _ fun inPage =>
    assembled.tlsIdt address (inPage.trans_le (by decide)) inside

section Steps

variable {pace : Pace} {layout : Layout} {program : Program} {mem : Memory}
variable {fuel : Nat} {device : Option Uart} {tape : Tape} {log : List Byte}
variable {board : Board}

/-- The literals are below the frames. -/
theorem Assembled.below_last (assembled : Assembled layout program)
    {address : Addr} (inside : Within program.rodata program.rodataSz address) :
    address.toNat < layout.last.toNat :=
  assembled.rodata.below_last inside

/-- The arguments of the message of `kallocinit`. -/
def frameArgs (last : Addr) : List (BitVec 64) :=
  [(BitVec.ofNat 32 (frameCount last)).setWidth 64, last, p2v maxPhysMem]

theorem Logged.kallocinit (assembled : Assembled layout program)
    (logged : Logged pace program mem device tape log board)
    (fresh : board.heap = { mem, nfreepages := 0, freelist := 0 })
    (enough : 2 ^ 53 ≤ fuel)
    (speaks : Speaks program mem fuel .kalloc (frameArgs layout.last)) :
    ∃ heap console free,
      Bringup.kallocinit pace layout program fuel board =
        .ok { board.setHeap heap with console } ∧
      Kalloc.Invariant layout.last heap free ∅ ∧ 56 ≤ free.length ∧
      Logged pace program mem device tape
        (log ++ Message.line .kalloc (frameArgs layout.last))
        { board.setHeap heap with console } := by
  have nonzero : layout.last ≠ 0 := by
    rcases assembled.bootable.valid.procsPlaced with ⟨low, fits⟩
    rintro zero
    rw [zero] at fits
    exact absurd fits (by simp)
  rcases Kalloc.kallocinitLoop_returns fuel
      (Kalloc.LoopInvariant.start layout.last mem) nonzero
      (Nat.lt_of_lt_of_le (by decide) enough) with ⟨heap, allocator⟩
  rcases kallocinit_spec allocator with ⟨free, invariant, count⟩
  have logged' : Logged pace program mem device tape log
      (board.setHeap heap) := by
    refine logged.congr rfl fun address inside => ?_
    show heap.mem address = board.heap.mem address
    rw [fresh]
    exact kallocinitLoop_keeps allocator (assembled.below_last inside)
  rcases logged'.say speaks with ⟨console, printed, logged''⟩
  refine ⟨heap, console, free, ?_, invariant, count ▸ assembled.bootable.room,
    logged''⟩
  rw [Bringup.kallocinit, fresh, Kalloc.kallocinit, allocator, Except.mapError,
    bind_ok, invariant.count, count]
  exact printed

/-- The kernel with its own tables. -/
def withTables (board : Board) (kpml4 : Addr) (heap : Heap) (console : Console) :
    Board :=
  { board with
    kernel :=
      { board.kernel with
        image := { board.kernel.image with heap, kpml4, cr3 := v2p kpml4 } }
    console }

theorem Logged.paginginitBsp (assembled : Assembled layout program)
    (logged : Logged pace program mem device tape log board)
    {free : List Addr}
    (invariant : Kalloc.Invariant layout.last board.heap free ∅)
    (enough : 56 ≤ free.length)
    (speaks : Speaks program mem fuel .paging []) :
    ∃ kpml4 heap console,
      Bringup.paginginitBsp pace program fuel board =
        .ok (withTables board kpml4 heap console) ∧
      Mapped layout.last heap kpml4 ∧
      Logged pace program mem device tape (log ++ Message.line .paging [])
        (withTables board kpml4 heap console) := by
  have inMemory : kernbase ≤ layout.last := by
    rcases assembled.bootable.valid.procsPlaced with ⟨low, fits⟩
    have range := layout.last.isLt
    bv_omega
  rcases paginginitBsp_spec inMemory invariant enough with
    ⟨kpml4, heap, rest, allocated, built, mapped⟩
  have logged' : Logged pace program mem device tape log
      (withTables board kpml4 heap board.console) :=
    logged.congr rfl fun address inside =>
      paginginitBsp_keeps inMemory invariant built (assembled.below_last inside)
  rcases logged'.say speaks with ⟨console, printed, logged''⟩
  refine ⟨kpml4, heap, console, ?_, ⟨rest, allocated, mapped⟩, logged''⟩
  rw [Bringup.paginginitBsp, built, Except.mapError, bind_ok]
  exact printed

/-- One processor is made up, and there is room for it. -/
theorem acpiinit_eq (none : board.smp = .zero) :
    Bringup.acpiinit board = .ok { board with smp := Smp.zero.withCpu 0 } := by
  rw [Bringup.acpiinit, none]
  rfl

theorem lapicinit_id (lapic : Registers) :
    Lapic.lapicinit lapic idIndex = lapic idIndex := by
  unfold Lapic.lapicinit
  split <;> rfl

theorem Logged.lapicinit
    (logged : Logged pace program mem device tape log board)
    (off : board.rflags &&& flIf = 0)
    (speaks : Speaks program mem fuel .lapic
      [(board.lapic idIndex >>> 24).setWidth 64]) :
    ∃ console,
      Bringup.lapicinit pace program fuel board =
        .ok { board with lapic := Lapic.lapicinit board.lapic, console } ∧
      Logged pace program mem device tape
        (log ++ Message.line .lapic [(board.lapic idIndex >>> 24).setWidth 64])
        { board with lapic := Lapic.lapicinit board.lapic, console } := by
  have logged' : Logged pace program mem device tape log
      { board with lapic := Lapic.lapicinit board.lapic } :=
    ⟨logged.view, logged.isOpen⟩
  have known : lapicid (Lapic.lapicinit board.lapic) board.rflags =
      .ok (board.lapic idIndex >>> 24) :=
    lapicid_eq_ok_iff.mpr ⟨off, by rw [lapicinit_id]⟩
  rcases logged'.say speaks with ⟨console, printed, logged''⟩
  refine ⟨console, ?_, logged''⟩
  rw [Bringup.lapicinit, known, Except.mapError, bind_ok]
  exact printed

/-- The board after `trapinit` on the first processor. -/
def withTraps (program : Program) (board : Board) (console : Console) : Board :=
  let mem := setupPage program.tls (setupGates program board.mem)
  let gdtr := loadTable program.tls (8 * 8)
  { board.setHeap { board.heap with mem } with
    console
    curcpu := 0
    fsbase := program.tls + 2048
    idtr := loadTable program.idt 4096
    gdtr
    tr := selectSystem mem gdtr (segTss <<< 3) }

theorem tlsLocal_zero (tls : Addr) : tlsLocal tls 0 = tls :=
  BitVec.add_zero tls

theorem Logged.trapinit (assembled : Assembled layout program)
    (logged : Logged pace program mem device tape log board)
    {id : BitVec 32} (known : lapicid board.lapic board.rflags = .ok id)
    (found : findCpu board.smp (id.setWidth 8) = some 0)
    (speaks : Speaks program mem fuel .trap []) :
    ∃ console,
      Bringup.trapinit pace program fuel board =
        .ok (withTraps program board console) ∧
      Logged pace program mem device tape (log ++ Message.line .trap [])
        (withTraps program board console) := by
  have page : Apart program.rodata program.rodataSz program.tls 4096 :=
    fun address inside inPage => assembled.rodataTls address inside
      (Nat.lt_of_lt_of_le inPage (by decide))
  have logged' : Logged pace program mem device tape log
      (withTraps program board board.console) :=
    logged.congr rfl fun address inside =>
      (setupPage_outside _ _ (page address inside)).trans
        (setupGates_outside _ _ (assembled.rodataIdt address inside))
  have ran : Trapinit.trapinit program.tls board.lapic board.rflags board.smp
      (setupGates program board.mem) =
        .ok ⟨0, program.tls,
          setupPage program.tls (setupGates program board.mem)⟩ := by
    rw [Trapinit.trapinit, known, ok_bind, found]
    dsimp only
    rw [tlsLocal_zero]
    rfl
  rcases logged'.say speaks with ⟨console, printed, logged''⟩
  refine ⟨console, ?_, logged''⟩
  rw [Bringup.trapinit, ran, Except.mapError, bind_ok]
  exact printed

theorem Logged.procinit (assembled : Assembled layout program)
    (logged : Logged pace program mem device tape log board)
    (first : board.kernel.nproc = 0) {index : Byte}
    (isIndex : (board.smp.cpus board.curcpu).index = index)
    (speaks : Speaks program mem fuel .proc [index.setWidth 64]) :
    ∃ console,
      Bringup.procinit pace layout program fuel board =
        .ok { board with
          kernel := Process.procinit layout index board.kernel, console } ∧
      Logged pace program mem device tape
        (log ++ Message.line .proc [index.setWidth 64])
        { board with
          kernel := Process.procinit layout index board.kernel, console } := by
  subst isIndex
  have logged' : Logged pace program mem device tape log
      { board with
        kernel := Process.procinit layout
          (board.smp.cpus board.curcpu).index board.kernel } :=
    logged.congr rfl fun address inside =>
      procinit_keeps first (assembled.rodataProcs address inside)
  exact logged'.say speaks

/-- The kernel with the tables of the users. -/
def withUsers (board : Board) (upml4 : Addr) (heap : Heap) (console : Console) :
    Board :=
  { board with
    kernel :=
      { board.kernel with image := { board.kernel.image with heap, upml4 } }
    console }

theorem Logged.uvminit (assembled : Assembled layout program)
    (logged : Logged pace program mem device tape log board)
    (mapped : Mapped layout.last board.heap board.kernel.image.kpml4)
    (speaks : Speaks program mem fuel .uvm [layout.ubegin, layout.uend]) :
    ∃ upml4 heap console,
      Bringup.uvminit pace layout program fuel board =
        .ok (withUsers board upml4 heap console) ∧
      Spaces layout.last heap board.kernel.image.kpml4 upml4
        (UserSection layout) ∧
      (∀ address : Addr, address.toNat < layout.last.toNat →
        heap.mem address = board.mem address) ∧
      Logged pace program mem device tape
        (log ++ Message.line .uvm [layout.ubegin, layout.uend])
        (withUsers board upml4 heap console) := by
  rcases mapped with ⟨free, allocated, wellFormed, plain, leaves, room⟩
  rcases uvminit_spec assembled.bootable.valid wellFormed plain leaves room with
    ⟨upml4, heap, copied, spaces⟩
  have kept (address : Addr) (below : address.toNat < layout.last.toNat) :
      heap.mem address = board.mem address :=
    uvminit_keeps wellFormed room copied below
  have logged' : Logged pace program mem device tape log
      (withUsers board upml4 heap board.console) :=
    logged.congr rfl fun address inside =>
      kept address (assembled.below_last inside)
  rcases logged'.say speaks with ⟨console, printed, logged''⟩
  refine ⟨upml4, heap, console, ?_, spaces, kept, logged''⟩
  rw [Bringup.uvminit, copied, Except.mapError, bind_ok]
  exact printed

end Steps

/-! ## The log -/

/-- `%p` of an address. -/
def pointer (address : Addr) : List Byte :=
  (numeral 16 address.toNat).leftpad 16 (charByte '0')

/-- What is printed up to the first `spawn`, by the processor 0. -/
def bootLog (layout : Layout) : List Byte :=
  ascii "kalloc: inited " ++ numeral 10 (frameCount layout.last) ++
    ascii " free pages [" ++ numeral 16 layout.last.toNat ++
    ascii " - ffffffff81000000]\n" ++
    ascii "paging: bsp init\nlapic: init ID=0\ntrap: init\n[0] proc: init\n" ++
    ascii "uvminit: mapped " ++ pointer layout.ubegin ++ ascii " ~ " ++
    pointer layout.uend ++ ascii " as PF_U\n"

theorem signedField_zero (n : Nat) : signedField 0 n = numeral 10 n := by
  have positive : decide ((n : Int) < 0) = false :=
    decide_eq_false (Int.not_lt.mpr (Int.natCast_nonneg n))
  rw [signedField, positive, Int.natAbs_natCast]
  exact Console.leftpad_of_le _ (Nat.zero_le _)

/-- `%x` sign-extends its argument, and so an address of the kernel stays whole. -/
theorem intArg_kernel {address : Addr} (high : kernbase.toNat ≤ address.toNat) :
    intArg address = address := by
  have base : kernbase.toNat = 0xFFFFFFFF80000000 := by decide
  have range := address.isLt
  apply BitVec.eq_of_toInt_eq
  rw [intArg_toInt, BitVec.toInt_eq_toNat_cond, BitVec.toInt_eq_toNat_cond,
    BitVec.toNat_setWidth, if_neg (by omega), if_neg (by omega)]
  omega

/-- `%d` of a small number in 32 bits. -/
theorem signedField_intArg {n : Nat} (small : n < 2 ^ 31) :
    signedField 0 (intArg ((BitVec.ofNat 32 n).setWidth 64)).toInt =
      numeral 10 n := by
  have value : (intArg ((BitVec.ofNat 32 n).setWidth 64)).toInt = n := by
    rw [intArg_toInt, BitVec.setWidth_setWidth_of_le _ (by decide),
      BitVec.setWidth_eq, BitVec.toInt_eq_toNat_cond, BitVec.toNat_ofNat]
    split <;> omega
  rw [value, signedField_zero]

theorem line_kalloc {last : Addr} (high : kernbase.toNat ≤ last.toNat) :
    Message.line .kalloc (frameArgs last) =
      ascii "kalloc: inited " ++ numeral 10 (frameCount last) ++
        ascii " free pages [" ++ numeral 16 last.toNat ++
        ascii " - ffffffff81000000]\n" := by
  have few : frameCount last < 2 ^ 31 :=
    Nat.lt_of_le_of_lt (Kalloc.frameCount_le high) (by decide)
  have bound : numeral 16 (intArg (p2v maxPhysMem)).toNat =
      ascii "ffffffff81000000" := by
    decide +kernel
  simp only [Message.line, Message.tokens, render_append, render_literals,
    taken_literals, render, Token.render, Kind.render, frameArgs, Token.takes,
    Kind.takes, Width.value, Width.valueFrom, List.getD_cons_zero,
    List.getD_cons_succ, List.foldl_nil, Nat.add_zero, Nat.zero_add]
  have rest : ascii " - " ++ (ascii "ffffffff81000000" ++ ascii "]\n") =
      ascii " - ffffffff81000000]\n" := by
    decide
  rw [signedField_intArg few, intArg_kernel high, bound,
    Console.leftpad_of_le _ (Nat.zero_le _),
    Console.leftpad_of_le _ (Nat.zero_le _), rest]
  simp only [List.append_assoc]

theorem line_uvm (ubegin uend : Addr) :
    Message.line .uvm [ubegin, uend] =
      ascii "uvminit: mapped " ++ pointer ubegin ++ ascii " ~ " ++ pointer uend ++
        ascii " as PF_U\n" := by
  simp only [Message.line, Message.tokens, render_append, render_literals,
    taken_literals, render, Token.render, Kind.render, Token.takes, Kind.takes,
    List.getD_cons_zero, List.getD_cons_succ, Nat.add_zero, Nat.zero_add, pointer,
    List.append_assoc]

theorem bootLog_eq {layout : Layout}
    (high : kernbase.toNat ≤ layout.last.toNat) :
    bootLog layout =
      [] ++ Message.line .kalloc (frameArgs layout.last) ++
        Message.line .paging [] ++ Message.line .lapic [0] ++
        Message.line .trap [] ++ Message.line .proc [0] ++
        Message.line .uvm [layout.ubegin, layout.uend] := by
  have middle : Message.line .paging [] ++ Message.line .lapic [0] ++
      Message.line .trap [] ++ Message.line .proc [0] =
      ascii "paging: bsp init\nlapic: init ID=0\ntrap: init\n[0] proc: init\n" := by
    decide +kernel
  rw [bootLog, ← middle, line_kalloc high, line_uvm]
  simp only [List.append_assoc, List.nil_append]

/-! ## The whole start -/

/-- The board when `main` is called: the bss is zero, and the entry code has not
turned interrupts on. -/
structure Fresh (mem : Memory) (device : Option Uart) (screen : Screen)
    (board : Board) : Prop where
  kernel : board.kernel = .zero { mem, nfreepages := 0, freelist := 0 }
  smp : board.smp = .zero
  console : board.console = ⟨false, ⟨device, false⟩, screen⟩
  inside : position screen < 24 * 80
  off : board.rflags &&& flIf = 0

/-- What `main` has set up on the processor. -/
structure Equipped (program : Program) (board : Board) : Prop where
  curcpu : board.curcpu = 0
  fsbase : board.fsbase = program.tls + 2048
  tr : board.tr = some (tssSegment (tssAddr program.tls 0))
  -- neither the gates nor the descriptors have been overwritten since
  gates : ∀ n < 256, selectGate (idtAt board.mem board.idtr.base) board.idtr n =
    some (if n = Trap.tSyscall then userTrapGate (program.vectors n)
      else interruptGate (program.vectors n))
  tss : selectSystem board.mem board.gdtr (segTss <<< 3) = board.tr
  segments : ∀ i < 6, load64 board.mem
    (gdtAddr board.gdtr.base (BitVec.ofNat 64 i)) = segments i
  armed : ∀ n, n ∈ Lapic.armed board.lapic ↔
    n = Trap.tIrq0 + Trap.irqTimer ∨ n = Trap.tIrq0 + Lapic.irqError ∨
      n = Trap.tIrq0 + Lapic.irqSpurious

/-- The board when `trapinit` is called. -/
structure Prepared (last : Addr) (before board : Board) : Prop where
  kernel : ∃ heap image, board.kernel = { KernelState.zero heap with image }
  cr3 : board.kernel.image.cr3 = v2p board.kernel.image.kpml4
  mapped : Mapped last board.heap board.kernel.image.kpml4
  lapic : board.lapic = Lapic.lapicinit before.lapic
  rflags : board.rflags = before.rflags
  smp : board.smp = Smp.zero.withCpu 0

section Whole

variable {pace : Pace} {layout : Layout} {program : Program} {mem : Memory}
variable {fuel : Nat} {device : Option Uart} {screen : Screen}
variable {board board' : Board}

/-- The log up to `trapinit`. -/
def earlyLog (layout : Layout) (id : BitVec 32) : List Byte :=
  [] ++ Message.line .kalloc (frameArgs layout.last) ++ Message.line .paging [] ++
    Message.line .lapic [id.setWidth 64]

theorem exists_prepared (assembled : Assembled layout program)
    (fresh : Fresh mem device screen board) (enough : 2 ^ 53 ≤ fuel)
    (speaks₁ : Speaks program mem fuel .kalloc (frameArgs layout.last))
    (speaks₂ : Speaks program mem fuel .paging [])
    (speaks₃ : Speaks program mem fuel .lapic
      [(board.lapic idIndex >>> 24).setWidth 64]) :
    ∃ board',
      Logged pace program mem (announced pace device) (Tape.ofScreen screen)
        (earlyLog layout (board.lapic idIndex >>> 24)) board' ∧
      Prepared layout.last board board' ∧
      main pace layout program fuel board = (do
        let board ← trapinit pace program fuel board'
        let board ← procinit pace layout program fuel board
        uvminit pace layout program fuel board) := by
  rcases board with ⟨kernel, console, lapic, rflags, smp, curcpu, fsbase, idtr,
    gdtr, tr⟩
  rcases fresh with ⟨rfl, rfl, rfl, inside, off⟩
  let first : Board := uartearlyinit pace
    ⟨.zero { mem, nfreepages := 0, freelist := 0 },
      ⟨false, ⟨device, false⟩, screen⟩, lapic, rflags, .zero, curcpu, fsbase, idtr,
      gdtr, tr⟩
  have logged : Logged pace program mem (announced pace device)
      (Tape.ofScreen screen) [] first := by
    refine ⟨rfl, ?_⟩
    rw [Uart.map_sendAll_nil]
    exact Uart.open_uartearlyinit pace device screen inside
  rcases logged.kallocinit assembled rfl enough speaks₁ with
    ⟨heap, console₁, free, ran₁, invariant, room, logged₁⟩
  rcases logged₁.paginginitBsp assembled invariant room speaks₂ with
    ⟨kpml4, heap', console₂, ran₂, mapped, logged₂⟩
  have numbered : Logged pace program mem (announced pace device)
      (Tape.ofScreen screen) _
      { withTables { first.setHeap heap with console := console₁ } kpml4 heap'
          console₂ with
        smp := Smp.zero.withCpu 0 } :=
    ⟨logged₂.view, logged₂.isOpen⟩
  have ran : Bringup.acpiinit (withTables { first.setHeap heap with
      console := console₁ } kpml4 heap' console₂) = .ok _ := acpiinit_eq rfl
  rcases numbered.lapicinit off speaks₃ with ⟨console₃, ran₃, logged₃⟩
  refine ⟨_, logged₃, ⟨⟨heap, _, rfl⟩, rfl, mapped, rfl, rfl, rfl⟩, ?_⟩
  rw [main, ran₁, bind_ok, ran₂, bind_ok, ran, bind_ok, ran₃, bind_ok]

/-- The made-up processor is the one with the number 0. -/
theorem findCpu_dummy (id : Byte) :
    findCpu (Smp.zero.withCpu 0) id = if id = 0 then some 0 else none := by
  show ([0].find? fun i => id == ((Smp.zero.withCpu 0).cpus i).index) = _
  have index : ((Smp.zero.withCpu 0).cpus 0).index = 0 := rfl
  rw [List.find?_cons, index, List.find?_nil]
  by_cases zero : id = 0
  · rw [if_pos zero, zero]
    rfl
  · rw [if_neg zero, beq_false_of_ne zero]

/-- The descriptors that `trapinit` writes, as long as the page is kept. -/
theorem descriptors_of_page {page : Addr} {left right : Memory}
    (kept : ∀ address, Within page 4096 address →
      left address = setupPage page right address) :
    selectSystem left (loadTable page (8 * 8)) (segTss <<< 3) =
        some (tssSegment (tssAddr page 0)) ∧
      ∀ i < 6, load64 left
        (gdtAddr (loadTable page (8 * 8)).base (BitVec.ofNat 64 i)) =
          Descriptors.segments i := by
  have same {i : BitVec 64} (inTable : i.toNat < 8) :
      load64 left (gdtAddr page i) =
        load64 (setupPage page right) (gdtAddr page i) :=
    load64_congr _ fun address inside =>
      kept address (inside.of_offset (by omega) (by omega))
  constructor
  · have limit : (loadTable page (8 * 8)).limit.toNat = 63 := rfl
    have index : segTss <<< 3 >>> 3 = segTss := by decide
    rw [selectSystem, index, loadTable_base, limit, same (by decide),
      same (by decide), load_setupPage page right (by decide),
      load_setupPage page right (by decide)]
    exact congrArg some (decode_tssDescriptor _)
  · intro i bound
    have inTable : (BitVec.ofNat 64 i).toNat < 8 := by
      rw [BitVec.toNat_ofNat]
      omega
    rw [loadTable_base, same inTable, load_setupPage page right inTable]
    interval_cases i <;> rfl

/-- The gates that `trapinit` writes, as long as the page is kept. -/
theorem gates_of_page {left right : Memory}
    (kept : ∀ address, Within program.idt 4096 address →
      left address = setupGates program right address)
    {n : Nat} (inTable : n < 256) :
    selectGate (idtAt left (loadTable program.idt 4096).base)
        (loadTable program.idt 4096) n =
      some (if n = Trap.tSyscall then userTrapGate (program.vectors n)
        else interruptGate (program.vectors n)) := by
  have limit : (loadTable program.idt 4096).limit.toNat = 4095 := rfl
  have word (k : Nat) (inGate : k < 4) :
      idtAt left program.idt (4 * n + k) =
        setupIdt program.vectors (idtAt right program.idt) (4 * n + k) := by
    have same : element left program.idt 4 (4 * n + k) =
        element (setupGates program right) program.idt 4 (4 * n + k) :=
      element_congr (by decide) fun address inside =>
        kept address (inside.of_offset (by omega) (by omega))
    exact same.trans (element_storeElements (by omega) (by decide))
  have decoded : decodeGate (fun k => idtAt left program.idt (4 * n + k)) =
      decodeGate fun k =>
        setupIdt program.vectors (idtAt right program.idt) (4 * n + k) := by
    simp only [decodeGate, word 0 (by decide), word 1 (by decide),
      word 2 (by decide)]
  rw [selectGate, if_pos (by omega), loadTable_base, decoded,
    decode_setupIdt program.vectors _ inTable]

/-- From a board whose local APIC has the number 0, the rest goes through. -/
theorem exists_equipped (assembled : Assembled layout program) {log : List Byte}
    {tape : Tape} (prepared : Prepared layout.last board board')
    (logged : Logged pace program mem device tape log board')
    (off : board.rflags &&& flIf = 0) (first : board.lapic idIndex >>> 24 = 0)
    (speaks₁ : Speaks program mem fuel .trap [])
    (speaks₂ : Speaks program mem fuel .proc [0])
    (speaks₃ : Speaks program mem fuel .uvm [layout.ubegin, layout.uend]) :
    ∃ after,
      Logged pace program mem device tape
        (log ++ Message.line .trap [] ++ Message.line .proc [0] ++
          Message.line .uvm [layout.ubegin, layout.uend]) after ∧
      (do
        let board ← trapinit pace program fuel board'
        let board ← procinit pace layout program fuel board
        uvminit pace layout program fuel board) = .ok after ∧
      Initial layout after.kernel ∧
      KernelSpaces layout after.kernel (UserSection layout) ∧
      Equipped program after := by
  have valid := assembled.bootable.valid
  rcases board' with ⟨kernel, console, lapic, rflags, smp, curcpu, fsbase, idtr,
    gdtr, tr⟩
  rcases prepared with ⟨⟨heap₀, image, rfl⟩, cr3, mapped, rfl, rfl, rfl⟩
  have known : lapicid (Lapic.lapicinit board.lapic) board.rflags = .ok 0 :=
    lapicid_eq_ok_iff.mpr ⟨off, by rw [lapicinit_id, first]⟩
  rcases logged.trapinit assembled known (findCpu_dummy 0) speaks₁ with
    ⟨console₁, ran₁, logged₁⟩
  rcases logged₁.procinit assembled rfl rfl speaks₂ with
    ⟨console₂, ran₂, logged₂⟩
  let trapped : Board := withTraps program ⟨{ KernelState.zero heap₀ with image },
    console, Lapic.lapicinit board.lapic, board.rflags, Smp.zero.withCpu 0, curcpu,
    fsbase, idtr, gdtr, tr⟩ console₁
  let started : Board :=
    { trapped with
      kernel := Process.procinit layout 0 trapped.kernel, console := console₂ }
  have above (address : Addr) (high : layout.last.toNat ≤ address.toNat) :
      started.mem address = image.heap.mem address :=
    (@procinit_outside layout valid 0 trapped.kernel rfl address high).trans
      (traps_above assembled _ high)
  rcases logged₂.uvminit assembled (mapped.congr above) speaks₃ with
    ⟨upml4, heap, console₃, ran₃, spaces, kept, logged₃⟩
  have keptPage (address : Addr) (inside : Within program.tls 4096 address) :
      heap.mem address =
        setupPage program.tls (setupGates program image.heap.mem) address := by
    have inTls : Within program.tls 32768 address :=
      inside.trans_le (by decide)
    exact (kept address (assembled.tls.below_last inTls)).trans
      (@procinit_keeps layout 0 trapped.kernel rfl address
        (assembled.tlsProcs address inTls))
  have keptGates (address : Addr) (inside : Within program.idt 4096 address) :
      heap.mem address = setupGates program image.heap.mem address := by
    have named : started.mem address = trapped.mem address :=
      @procinit_keeps layout 0 trapped.kernel rfl address
        (assembled.idtProcs address inside)
    exact (kept address (assembled.idt.below_last inside)).trans
      (named.trans (traps_gates assembled _ inside))
  rcases descriptors_of_page keptPage with ⟨tss, entries⟩
  have written := @descriptors_of_page program.tls
    (setupPage program.tls (setupGates program image.heap.mem))
    (setupGates program image.heap.mem) fun _ _ => rfl
  refine ⟨_, logged₃, ?_, ⟨⟨0, heap₀, rfl⟩, rfl, rfl, rfl, rfl, cr3⟩, spaces, rfl,
    rfl, written.1, fun _ => gates_of_page keptGates,
    tss.trans written.1.symm, entries, Lapic.mem_armed_lapicinit board.lapic⟩
  rw [ran₁, bind_ok, ran₂, bind_ok]
  exact ran₃

/-- What holds in every run of the scheduler from the board on. -/
theorem runs_of_initial {kernel : KernelState} (valid : Valid layout)
    (initial : Initial layout kernel) {user : BitVec 64 → Prop}
    (spaces : KernelSpaces layout kernel user) {machine : Processor.Machine}
    (reaches : Reaches (Processor.step layout) (start kernel) machine) :
    Processor.Reachable layout machine ∧
      (machine.code = [] → ∃ user, KernelSpaces layout machine.kernel user) := by
  constructor
  · rcases initial.boots with ⟨index, heap, boots⟩
    rw [boots] at reaches
    exact ⟨index, heap, kernel.image, reaches⟩
  · intro resting
    rcases reaches with ⟨steps, path⟩
    rcases Contracts.Upholds.path (Main.spacesRules valid)
        (Main.good_start initial)
        ⟨⟨user, spaces⟩, fun _ _ member => nomatch member⟩ path with
      ⟨_, _, upholds⟩
    have atRest := upholds.ok
    rw [resting] at atRest
    exact atRest

end Whole

/--
How `main` leaves the machine: the processor has found its segments and gates, the
log is on the screen and, if the port is fast enough, on the serial line, and every
run of the scheduler from there on is one of those that start after `procinit`, with
the address spaces in order whenever a thread is in no kernel function.
-/
structure BroughtUp (pace : Pace) (layout : Layout) (program : Program)
    (device : Option Uart) (screen : Screen) (board : Board) : Prop where
  equipped : Equipped program board
  shown : Shown board.console.screen.mem (position board.console.screen)
    ((chars (bootLog layout)).foldl Tape.put (Tape.ofScreen screen))
  sent : ∀ uart, device = some uart → uart.busy ≤ 128 →
    (∀ n, pace.delay n ≤ 128) → ∃ uart',
      board.console.serial.device = some uart' ∧
      uart'.sent = uart.sent ++ announcement ++ bootLog layout
  initial : Initial layout board.kernel
  runs : ∀ machine,
    Reaches (Processor.step layout) (start board.kernel) machine →
      Processor.Reachable layout machine ∧
      (machine.code = [] → ∃ user, KernelSpaces layout machine.kernel user)

theorem exists_broughtUp (pace : Pace) {layout : Layout} {program : Program}
    (assembled : Assembled layout program) {mem : Memory}
    (spelled : Spelled program mem) {device : Option Uart} {screen : Screen}
    {board : Board} (fresh : Fresh mem device screen board)
    (first : board.lapic idIndex >>> 24 = 0) :
    ∃ bound, ∀ fuel ≥ bound, ∃ board',
      main pace layout program fuel board = .ok board' ∧
      BroughtUp pace layout program device screen board' := by
  rcases spelled.speaks .kalloc (frameArgs layout.last) with ⟨bound₁, speaks₁⟩
  rcases spelled.speaks .paging [] with ⟨bound₂, speaks₂⟩
  rcases spelled.speaks .lapic [0] with ⟨bound₃, speaks₃⟩
  rcases spelled.speaks .trap [] with ⟨bound₄, speaks₄⟩
  rcases spelled.speaks .proc [0] with ⟨bound₅, speaks₅⟩
  rcases spelled.speaks .uvm [layout.ubegin, layout.uend] with ⟨bound₆, speaks₆⟩
  refine ⟨2 ^ 53 + bound₁ + bound₂ + bound₃ + bound₄ + bound₅ + bound₆,
    fun fuel enough => ?_⟩
  rcases @exists_prepared pace _ _ _ fuel _ _ _ assembled fresh (by omega)
      (speaks₁ fuel (by omega)) (speaks₂ fuel (by omega))
      (by rw [first]; exact speaks₃ fuel (by omega)) with
    ⟨middle, logged, prepared, ran⟩
  rcases exists_equipped assembled prepared logged fresh.off first
      (speaks₄ fuel (by omega)) (speaks₅ fuel (by omega))
      (speaks₆ fuel (by omega)) with
    ⟨board', logged', ran', initial, spaces, equipped⟩
  have high : kernbase.toNat ≤ layout.last.toNat := by
    rcases assembled.rodata with ⟨low, fits⟩
    omega
  have log : earlyLog layout 0 ++ Message.line .trap [] ++ Message.line .proc [0] ++
      Message.line .uvm [layout.ubegin, layout.uend] = bootLog layout :=
    (bootLog_eq high).symm
  rw [first, log] at logged'
  have isOpen := logged'.isOpen
  refine ⟨board', ran.trans ran', equipped, isOpen.shown, ?_, initial,
    fun machine reaches =>
      runs_of_initial assembled.bootable.valid initial spaces reaches⟩
  rintro uart rfl busy delays
  let text := announcement ++ bootLog layout
  refine ⟨sendAll pace 128 text (Uart.checked pace uart), ?_, ?_⟩
  · rw [isOpen.serial]
    exact congrArg some (sendAll_append announcement (bootLog layout)).symm
  · rw [List.append_assoc]
    exact sendAll_sent text delays (Nat.le_trans (Nat.sub_le _ _) busy)

/-! ## From the firmware on -/

section Power

variable {disk : Disk} {n : Nat} {symbols : Entry.Symbols}

/-- The section of the literals in the kernel file. -/
def fileView (disk : Disk) (n : Nat) (program : Program) : View := fun address =>
  if Within program.rodata program.rodataSz address then
    some (imageByte disk n (address.toNat - kernelBegin.toNat))
  else none

/-- The literals are in the loaded part of the kernel file. -/
structure SpelledIn (disk : Disk) (n : Nat) (symbols : Entry.Symbols)
    (program : Program) : Prop where
  begins : kernelBegin.toNat ≤ program.rodata.toNat
  ends : program.rodata.toNat + program.rodataSz ≤ symbols.edata.toNat
  text : ∀ message, program.literal message ≠ 0 ∧
    StringAt (fileView disk n program) (program.literal message)
      (ascii message.format)

/-- With the image in its place, the kernel reads its literals from the file. -/
theorem SpelledIn.spelled {program : Program}
    (spelled : SpelledIn disk n symbols program) {mem : PhysMemory}
    (image : ImageIn disk n symbols mem) :
    Spelled program (directMap mem) := by
  have start : kernelBegin.toNat = 0xFFFFFFFF80100000 := by decide
  have base : kernbase.toNat = 0xFFFFFFFF80000000 := by decide
  have begins := spelled.begins
  have ends := spelled.ends
  have range := symbols.edata.isLt
  have same : program.view (directMap mem) = fileView disk n program := by
    funext address
    simp only [Program.view, fileView]
    split
    · rename_i inside
      rw [within_iff_between (by omega)] at inside
      have place : (v2p address).setWidth 32 =
          BitVec.ofNat 32 (0x100000 + (address.toNat - kernelBegin.toNat)) := by
        apply BitVec.eq_of_toNat_eq
        rw [BitVec.toNat_setWidth, BitVec.toNat_ofNat, v2p, BitVec.toNat_sub]
        omega
      rw [directMap, place, image _ (by omega)]
    · rfl
  intro message
  rw [same]
  exact spelled.text message

end Power

/--
From the firmware to the scheduler.  The firmware starts the boot block of a disk
with a kernel on it; the boot block calls the loader.  Once the keyboard controller
has taken the byte that lets the address line 20 through, the loader enters the
kernel, and the entry code arrives at `main` in long mode.  If the local APIC of the
processor has the number 0, `main` gets through to the first `spawn` and leaves the
machine as `BroughtUp` has it; the messages on the console are those in the kernel
file.
-/
theorem firmware_to_scheduler (keyboard : Controller8042.Pace) (serial : Pace)
    {disk : Disk} {n : Nat} {symbols : Entry.Symbols} (linked : symbols.Linked)
    (file : KernelFile disk n symbols) {block : Boot.Bootasm.Symbols}
    (onDisk : BlockOnDisk disk block) (cpu : Boot.Bootasm.Cpu)
    (loaded : Loaded disk cpu.mem) {layout : Layout} {program : Program}
    (assembled : Assembled layout program)
    (spelled : SpelledIn disk n symbols program) :
    ∃ bound called,
      (∀ fuel ≥ bound, Boot.Bootasm.bootasm keyboard block fuel cpu =
        some called) ∧
      called.interrupts = false ∧ (settled called).a20 = true ∧
      ∀ fuel ≥ 2 ^ 23, ∃ mem',
        Boot.Bootmain.bootmain disk fuel (settled called).view =
          .ok (.enters (symbols.low symbols.mbootEntry) mem') ∧
        ∀ entry : Entry.Cpu, entry.mem = mem' → entry.cr0 = called.cr0 →
          ∃ cpu', Entry.enterKernel symbols (Entry.mbootEntry entry) =
              some cpu' ∧
            cpu'.LongMode ∧ cpu'.rip = symbols.main ∧
            ∀ device screen board,
              Fresh (directMap cpu'.mem) device screen board →
              board.lapic idIndex >>> 24 = 0 →
              ∃ bound', ∀ fuel ≥ bound', ∃ board',
                main serial layout program fuel board = .ok board' ∧
                BroughtUp serial layout program device screen board' := by
  rcases exists_arrives keyboard linked file onDisk cpu loaded with
    ⟨bound, called, boots, arrives⟩
  refine ⟨bound, called, boots, arrives.protectedMode.interrupts, arrives.line,
    fun fuel enough => ?_⟩
  rcases arrives.loads fuel enough with ⟨mem', loads, image, enter⟩
  refine ⟨mem', loads, fun entry sameMem sameMode => ?_⟩
  rcases enter entry sameMem sameMode with
    ⟨cpu', enters, longMode, rip, memory, _⟩
  refine ⟨cpu', enters, longMode, rip, ?_⟩
  intro device screen board fresh first
  exact exists_broughtUp serial assembled
    (spelled.spelled (memory ▸ image)) fresh first

/-- The variables of a kernel that has its pages of thread-local storage at the end. -/
def tlsLayout : Layout :=
  { bssLayout with last := 0xFFFFFFFF8011D000 }

def sampleProgram : Program where
  rodata := 0xFFFFFFFF80100900
  rodataSz := 139
  literal
    | .kalloc => 0xFFFFFFFF80100900
    | .paging => 0xFFFFFFFF80100928
    | .lapic => 0xFFFFFFFF8010093A
    | .trap => 0xFFFFFFFF8010094D
    | .proc => 0xFFFFFFFF80100959
    | .uvm => 0xFFFFFFFF8010096A
  tls := 0xFFFFFFFF80114000
  idt := 0xFFFFFFFF8011C000
  vectors n := 0xFFFFFFFF80100100 + BitVec.ofNat 64 (7 * n)

theorem sampleProgram_assembled : Assembled tlsLayout sampleProgram where
  bootable :=
    { valid :=
        { bssLayout_bootable.valid with
          procsPlaced := ⟨by decide, by decide⟩
          kstacksPlaced := ⟨by decide, by decide⟩
          ustacksPlaced := ⟨by decide, by decide⟩
          userPlaced := by decide }
      room := by decide }
  rodata := ⟨by decide, by decide⟩
  tls := ⟨by decide, by decide⟩
  rodataProcs := @apart_of_offsets 0xFFFFFFFF80100000 0x900 0x1000 139 1152
    (by decide) (by decide)
  rodataTls := @apart_of_offsets 0xFFFFFFFF80100000 0x900 0x14000 139 32768
    (by decide) (by decide)
  idt := ⟨by decide, by decide⟩
  rodataIdt := @apart_of_offsets 0xFFFFFFFF80100000 0x900 0x1C000 139 4096
    (by decide) (by decide)
  tlsProcs := (@apart_of_offsets 0xFFFFFFFF80100000 0x1000 0x14000 1152 32768
    (by decide) (by decide)).symm
  tlsIdt := @apart_of_offsets 0xFFFFFFFF80100000 0x14000 0x1C000 32768 4096
    (by decide) (by decide)
  idtProcs := (@apart_of_offsets 0xFFFFFFFF80100000 0x1000 0x1C000 1152 4096
    (by decide) (by decide)).symm

/-- The section of its literals. -/
def sampleRodata : List Byte :=
  [Message.kalloc, .paging, .lapic, .trap, .proc, .uvm].flatMap fun message =>
    ascii message.format ++ [0]

/-- Its disk: the boot block, and the kernel file with the literals. -/
def sampleDisk : Disk := fun position =>
  if position < 512 then Startup.sampleDisk position
  else if 512 + 0x900 ≤ position ∧ position < 512 + 0x900 + 139 then
    sampleRodata.getD (position - 512 - 0x900) 0
  else
    Boot.BootHeader.fileOf
      (fun k => if k = 6 then 0x11D000 else sampleFile.words.getD k 0xF4F4F4F4)
      position

def tlsSymbols : Entry.Symbols :=
  { sampleSymbols with last := 0xFFFFFFFF8011D000 }

theorem tlsSymbols_linked : tlsSymbols.Linked :=
  { sampleSymbols_linked with
    ordered := by decide
    inMemory := by decide }

theorem sampleDisk_file : KernelFile sampleDisk 0 tlsSymbols where
  contained := by decide
  header := by
    simp only [Boot.Bootmain.diskHeader, Boot.Bootmain.MbHeader.ofWords,
      Entry.Symbols.header, Boot.Bootmain.MbHeader.mk.injEq]
    decide +kernel
  first := fun m before => absurd before (Nat.not_lt_zero m)
  limit := by decide +kernel
  base := by decide +kernel
  codeLow := by decide +kernel
  codeHigh := by decide +kernel

theorem sampleDisk_onDisk : BlockOnDisk sampleDisk Startup.sampleBlock where
  start := rfl
  gdt := by decide
  gdtdesc := by decide
  limit := by decide +kernel
  base := by decide +kernel
  code := by decide +kernel
  data := by decide +kernel

theorem sampleDisk_loaded : Loaded sampleDisk Startup.firmwareCpu.mem := by
  intro i inSector
  rw [Startup.firmwareCpu_loaded i inSector, sampleDisk, if_pos inSector]

theorem sampleDisk_spelled :
    SpelledIn sampleDisk 0 tlsSymbols sampleProgram where
  begins := by decide
  ends := by decide
  text message := by
    cases message <;> exact ⟨by decide, by decide +kernel⟩

/-- A machine with a serial port, and a local APIC of the given number. -/
def sampleBoard (mem : Memory) (number : BitVec 32) : Board where
  kernel := .zero { mem, nfreepages := 0, freelist := 0 }
  console := ⟨false, ⟨some Uart.sampleUart, false⟩, Cga.sampleScreen⟩
  lapic _ := number <<< 24
  rflags := 2
  smp := .zero
  curcpu := 0
  fsbase := 0
  idtr := loadTable 0 0
  gdtr := loadTable 0 0
  tr := none

theorem sampleBoard_fresh (mem : Memory) (number : BitVec 32) :
    Fresh mem (some Uart.sampleUart) Cga.sampleScreen (sampleBoard mem number) :=
  ⟨rfl, rfl, rfl, by decide, (by decide : (2 : BitVec 64) &&& flIf = 0)⟩

theorem firmware_to_scheduler_sample :
    ∃ called mem' entry cpu' fuel board' uart,
      Boot.Bootmain.bootmain sampleDisk (2 ^ 23) called =
        .ok (.enters 0x100020 mem') ∧
      Entry.enterKernel tlsSymbols entry = some cpu' ∧
      main Uart.samplePace tlsLayout sampleProgram fuel
        (sampleBoard (directMap cpu'.mem) 0) = .ok board' ∧
      board'.console.serial.device = some uart ∧
      uart.sent = ascii ("\nuart: earlyinit\n" ++
        "kalloc: inited 3811 free pages [ffffffff8011d000 - ffffffff81000000]\n" ++
        "paging: bsp init\nlapic: init ID=0\ntrap: init\n[0] proc: init\n" ++
        "uvminit: mapped ffffffff80112000 ~ ffffffff80114000 as PF_U\n") := by
  rcases firmware_to_scheduler Startup.samplePace Uart.samplePace
      tlsSymbols_linked sampleDisk_file sampleDisk_onDisk Startup.firmwareCpu
      sampleDisk_loaded sampleProgram_assembled sampleDisk_spelled with
    ⟨_, called, _, _, _, loads⟩
  rcases loads (2 ^ 23) (Nat.le_refl _) with ⟨mem', loaded, enter⟩
  rcases enter { Entry.loaderCpu with mem := mem', cr0 := called.cr0 } rfl rfl with
    ⟨cpu', entered, _, _, runs⟩
  rcases runs _ _ _ (sampleBoard_fresh (directMap cpu'.mem) 0)
      (by decide : (0 : BitVec 32) <<< 24 >>> 24 = 0) with
    ⟨fuel, brings⟩
  rcases brings fuel (Nat.le_refl _) with ⟨board', ran, broughtUp⟩
  rcases broughtUp.sent Uart.sampleUart rfl (by decide)
      fun _ => (by decide : 3 ≤ 128) with ⟨uart, found, sent⟩
  refine ⟨(settled called).view, mem', _, cpu', fuel, board', uart, loaded, entered,
    ran, found, ?_⟩
  rw [sent]
  decide +kernel

/--
`acpiinit` has made up a processor with the number 0.  On a machine that starts on a
processor with another number, `main` does not get further than `trapinit`.
-/
theorem main_panics_on_other_number (pace : Pace) {layout : Layout}
    {program : Program} (assembled : Assembled layout program) {mem : Memory}
    (spelled : Spelled program mem) {device : Option Uart} {screen : Screen}
    {board : Board} (fresh : Fresh mem device screen board)
    (other : board.lapic idIndex >>> 24 ≠ 0) :
    ∃ bound, ∀ fuel ≥ bound, main pace layout program fuel board =
      .error (.panic .trapinit "cpuid != -1") := by
  rcases spelled.speaks .kalloc (frameArgs layout.last) with ⟨bound₁, speaks₁⟩
  rcases spelled.speaks .paging [] with ⟨bound₂, speaks₂⟩
  rcases spelled.speaks .lapic [(board.lapic idIndex >>> 24).setWidth 64] with
    ⟨bound₃, speaks₃⟩
  refine ⟨2 ^ 53 + bound₁ + bound₂ + bound₃, fun fuel enough => ?_⟩
  rcases @exists_prepared pace _ _ _ fuel _ _ _ assembled fresh (by omega)
      (speaks₁ fuel (by omega)) (speaks₂ fuel (by omega))
      (speaks₃ fuel (by omega)) with
    ⟨middle, _, prepared, ran⟩
  have known : lapicid middle.lapic middle.rflags =
      .ok (board.lapic idIndex >>> 24) := by
    rw [prepared.lapic, prepared.rflags]
    exact lapicid_eq_ok_iff.mpr ⟨fresh.off, by rw [lapicinit_id]⟩
  have nonzero : (board.lapic idIndex >>> 24).setWidth 8 ≠ 0 := by
    intro zero
    have same := toNat_lapicId board.lapic
    rw [zero] at same
    exact other (BitVec.eq_of_toNat_eq same.symm)
  have stops : Trapinit.trapinit program.tls middle.lapic middle.rflags middle.smp
      (setupGates program middle.mem) = .error (.panic .trapinit "cpuid != -1") := by
    rw [Trapinit.trapinit, known, ok_bind, prepared.smp, findCpu_dummy,
      if_neg nonzero]
  rw [ran, trapinit, stops]
  rfl

theorem main_panics_on_other_number_one :
    ∃ fuel, main Uart.samplePace tlsLayout sampleProgram fuel
      (sampleBoard (fun address => sampleRodata.getD
        (address - sampleProgram.rodata).toNat 0) 1) =
      .error (.panic .trapinit "cpuid != -1") := by
  have spelled : Spelled sampleProgram fun address => sampleRodata.getD
      (address - sampleProgram.rodata).toNat 0 := by
    intro message
    cases message <;> exact ⟨by decide, by decide +kernel⟩
  rcases main_panics_on_other_number Uart.samplePace sampleProgram_assembled
      spelled (sampleBoard_fresh _ 1)
      (by decide : (1 : BitVec 32) <<< 24 >>> 24 ≠ 0) with ⟨fuel, stops⟩
  exact ⟨fuel, stops fuel (Nat.le_refl _)⟩

end Rt64.Kernel.Bringup
