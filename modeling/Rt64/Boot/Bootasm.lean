import Rt64.Boot.Bootmain
import Rt64.Lib.Controller8042
import Rt64.Lib.Segmentation

/-!
# The start of the processors

`bootasm.S` starts the first processor.  The firmware leaves it in real mode; it lets
the address line 20 through, switches to protected mode with a table of its own,
whose segments are all of memory, and calls `bootmain`.

`bootap.S` starts another one, in the same way, except that the line is on already
and that the stack and the function to call are in memory before the code.

An instruction that faults, or a loop that does not end, has no result.
-/

namespace Rt64.Boot.Bootasm

open Rt64.Lib.ByteMemory
open Rt64.Lib.Controller8042
open Rt64.Lib.Segmentation
open Rt64.Include.Defs
open Rt64.Boot.Bootmain

/-! ## The processor -/

structure Cpu where
  mem : PhysMemory
  keyboard : Controller
  /-- The interrupt flag. -/
  interrupts : Bool
  cr0 : BitVec 32
  gdtLimit : BitVec 16
  gdtBase : BitVec 32
  cs : Segment
  ds : Segment
  es : Segment
  ss : Segment
  fs : Segment
  gs : Segment
  ebx : BitVec 32
  esp : BitVec 32
  eip : BitVec 32

/-- `movl` to memory. -/
def setWord (address : PhysAddr) (value : BitVec 32) (mem : PhysMemory) :
    PhysMemory := fun target =>
  if (target - address).toNat < 4 then
    (value >>> (8 * (target - address).toNat)).setWidth 8
  else mem target

/-- Two words of memory. -/
def quad (mem : PhysMemory) (address : PhysAddr) : BitVec 64 :=
  word mem (address + 4) ++ word mem address

namespace Cpu

/-- The address line 20 is let through. -/
def a20 (cpu : Cpu) : Bool :=
  cpu.keyboard.output.getLsbD 1

/-- An address on the bus. -/
def bus (cpu : Cpu) (address : PhysAddr) : PhysAddr :=
  if cpu.a20 then address else address &&& ~~~ 0x100000#32

/-- Memory as the processor sees it. -/
def view (cpu : Cpu) : PhysMemory := fun address =>
  cpu.mem (cpu.bus address)

def table (cpu : Cpu) : Table where
  limit := cpu.gdtLimit
  base := cpu.gdtBase
  quad := quad cpu.view

/-- `lgdt` with 16-bit operands takes a base of 24 bits. -/
def lgdt (cpu : Cpu) (address : BitVec 32) : Cpu :=
  let place := cpu.ds.base + address
  { cpu with
    gdtLimit := (word cpu.view place).setWidth 16
    gdtBase := word cpu.view (place + 2) &&& 0xFFFFFF }

/-- A push, with the address that it comes to. -/
def push (cpu : Cpu) (value : BitVec 32) : Cpu :=
  let esp := cpu.esp - 4
  { cpu with esp, mem := setWord (cpu.bus (cpu.ss.base + esp)) value cpu.mem }

end Cpu

/-! ## The code -/

abbrev cr0PE : BitVec 32 := 1

abbrev staX : Byte := 0x8
abbrev staW : Byte := 0x2
abbrev staR : Byte := 0x2

/-- `SEG_ASM`. -/
def segAsm (type : Byte) (base lim : BitVec 32) : BitVec 64 :=
  ((base >>> 24) &&& 0xff).setWidth 8 ++
    (0xC0 ||| ((lim >>> 28) &&& 0xf)).setWidth 8 ++ (0x90#8 ||| type) ++
    ((base >>> 16) &&& 0xff).setWidth 8 ++ (base &&& 0xffff).setWidth 16 ++
    ((lim >>> 12) &&& 0xffff).setWidth 16

/-- The symbols of a boot block. -/
structure Symbols where
  start : BitVec 32
  start32 : BitVec 32
  /-- The instruction after the call. -/
  after : BitVec 32
  gdt : BitVec 32
  gdtdesc : BitVec 32
  /-- Only the first boot block has it. -/
  bootmain : BitVec 32

/-- `cli`, and the segments for data in real mode. -/
def zeroSegments (cpu : Cpu) : Cpu :=
  { cpu with
    interrupts := false
    ds := cpu.ds.real 0
    es := cpu.es.real 0
    ss := cpu.ss.real 0 }

/-- `seta20`. -/
def seta20 (pace : Pace) (fuel : Nat) (keyboard : Controller) :
    Option Controller := do
  let keyboard ← waitLoop pace fuel keyboard
  let keyboard := write pace .command 0xd1 keyboard
  let keyboard ← waitLoop pace fuel keyboard
  return write pace .data 0xdf keyboard

/-- From `lgdt` to the loads of the segment registers after `start32`. -/
def protect (symbols : Symbols) (cpu : Cpu) : Option Cpu := do
  let cpu := cpu.lgdt symbols.gdtdesc
  let cpu := { cpu with cr0 := cpu.cr0 ||| cr0PE }
  let cs ← cpu.table.loadCode ((segKcode <<< 3).setWidth 16)
  let cpu := { cpu with cs, eip := symbols.start32 }
  let data ← cpu.table.loadData ((segKdata <<< 3).setWidth 16)
  let stack ← cpu.table.loadStack ((segKdata <<< 3).setWidth 16)
  let other ← cpu.table.loadData 0
  return { cpu with ds := data, es := data, ss := stack, fs := other, gs := other }

/-- `bootasm.S`, up to the call of `bootmain`. -/
def bootasm (pace : Pace) (symbols : Symbols) (fuel : Nat) (cpu : Cpu) :
    Option Cpu := do
  let cpu := zeroSegments cpu
  let keyboard ← seta20 pace fuel cpu.keyboard
  let cpu ← protect symbols { cpu with keyboard }
  let cpu := { cpu with esp := symbols.start }
  return { cpu.push symbols.after with eip := symbols.bootmain }

/-- `bootap.S`, up to its call. -/
def bootap (symbols : Symbols) (cpu : Cpu) : Option Cpu := do
  let cpu ← protect symbols (zeroSegments cpu)
  let cpu := { cpu with ebx := 1 }
  let cpu := { cpu with esp := word cpu.view (symbols.start - 4) }
  let target := word cpu.view (symbols.start - 8)
  return { cpu.push symbols.after with eip := target }

/-! ## The table -/

def codeDesc : BitVec 64 :=
  segAsm (staX ||| staR) 0 0xffffffff

def dataDesc : BitVec 64 :=
  segAsm staW 0 0xffffffff

/-- A boot block is in memory, with its table. -/
structure Symbols.Stored (symbols : Symbols) (mem : PhysMemory) : Prop where
  gdtLow : symbols.gdt.toNat + 24 ≤ 2 ^ 16
  gdtdescLow : symbols.gdtdesc.toNat + 6 ≤ 2 ^ 16
  limit : (word mem symbols.gdtdesc).setWidth 16 = 23#16
  base : word mem (symbols.gdtdesc + 2) = symbols.gdt
  code : quad mem (symbols.gdt + 8) = codeDesc
  data : quad mem (symbols.gdt + 16) = dataDesc

theorem flat_code : (decode 8 codeDesc).Flat ∧ (decode 8 codeDesc).code = true := by
  refine ⟨⟨?_, ?_, ?_, ?_⟩, ?_⟩ <;> decide

theorem flat_data : (decode 16 dataDesc).Flat ∧
    (decode 16 dataDesc).code = false := by
  refine ⟨⟨?_, ?_, ?_, ?_⟩, ?_⟩ <;> decide

section View

variable {cpu : Cpu}

/-- The first megabyte is the same with the line on or off. -/
theorem Cpu.bus_low {address : PhysAddr} (low : address.toNat < 2 ^ 20) :
    cpu.bus address = address := by
  unfold Cpu.bus
  split
  · rfl
  · apply BitVec.eq_of_getLsbD_eq
    intro i bound
    have mask : ∀ i < 32, i ≠ 20 → (~~~ 0x100000#32).getLsbD i = true := by
      decide
    rw [BitVec.getLsbD_and]
    by_cases line : i = 20
    · have zero : address.getLsbD 20 = false := Nat.testBit_lt_two_pow low
      rw [line, zero, Bool.false_and]
    · rw [mask i bound line, Bool.and_true]

theorem Cpu.word_view {address : PhysAddr} (low : address.toNat + 4 ≤ 2 ^ 20) :
    word cpu.view address = word cpu.mem address := by
  have byte (k : BitVec 32) (small : k.toNat < 4) :
      cpu.view (address + k) = cpu.mem (address + k) :=
    congrArg cpu.mem (Cpu.bus_low (by bv_omega))
  have first : cpu.view address = cpu.mem address :=
    congrArg cpu.mem (Cpu.bus_low (by omega))
  rw [word, word, byte 3 (by decide), byte 2 (by decide), byte 1 (by decide),
    first]

theorem Cpu.quad_view {address : PhysAddr} (low : address.toNat + 8 ≤ 2 ^ 20) :
    quad cpu.view address = quad cpu.mem address := by
  have second : (address + 4).toNat + 4 ≤ 2 ^ 20 := by
    bv_omega
  rw [quad, quad, Cpu.word_view second, Cpu.word_view (by omega)]

end View

/-! ## Protected mode -/

section Protect

variable {symbols : Symbols} {cpu : Cpu}

/-- The processor in protected mode. -/
def inProtectedMode (symbols : Symbols) (cpu : Cpu) : Cpu :=
  { cpu with
    cr0 := cpu.cr0 ||| cr0PE
    gdtLimit := 23#16
    gdtBase := symbols.gdt
    cs := decode 8 codeDesc
    ds := decode 16 dataDesc
    es := decode 16 dataDesc
    ss := decode 16 dataDesc
    fs := .null 0
    gs := .null 0
    eip := symbols.start32 }

theorem lgdt_eq (stored : symbols.Stored cpu.mem) (flat : cpu.ds.base = 0) :
    cpu.lgdt symbols.gdtdesc =
      { cpu with gdtLimit := 23#16, gdtBase := symbols.gdt } := by
  have low := stored.gdtLow
  have low' := stored.gdtdescLow
  have place : cpu.ds.base + symbols.gdtdesc = symbols.gdtdesc := by
    rw [flat]
    exact BitVec.zero_add _
  have second : (symbols.gdtdesc + 2).toNat + 4 ≤ 2 ^ 20 := by
    bv_omega
  have kept : symbols.gdt &&& 0xFFFFFF = symbols.gdt := by
    apply BitVec.eq_of_toNat_eq
    rw [BitVec.toNat_and, show BitVec.toNat (0xFFFFFF : BitVec 32) = 2 ^ 24 - 1
      from rfl, Nat.and_two_pow_sub_one_eq_mod]
    omega
  simp only [Cpu.lgdt]
  rw [place, Cpu.word_view (by omega), Cpu.word_view second, stored.limit,
    stored.base, kept]

section Table

variable {table : Table}

theorem loadCode_eq {selector : BitVec 16} {desc : BitVec 64}
    (found : table.find selector = some desc) (plain : Plain desc)
    (code : (decode selector desc).code = true) :
    table.loadCode selector = some (decode selector desc) := by
  rw [Table.loadCode, found]
  exact if_pos ⟨plain, code⟩

theorem loadData_eq {selector : BitVec 16} {desc : BitVec 64}
    (nonnull : selector ≠ 0) (found : table.find selector = some desc)
    (plain : Plain desc) (data : (decode selector desc).code = false) :
    table.loadData selector = some (decode selector desc) := by
  rw [Table.loadData, if_neg nonnull, found]
  exact if_pos ⟨plain, data⟩

theorem loadStack_eq {selector : BitVec 16} {segment : Segment}
    (loaded : table.loadData selector = some segment)
    (access : segment.access = true) :
    table.loadStack selector = some segment := by
  rw [Table.loadStack, loaded]
  exact if_pos access

end Table

/-- The descriptors lie in the first megabyte. -/
theorem find_eq (stored : symbols.Stored cpu.mem) (limit : cpu.gdtLimit = 23#16)
    (base : cpu.gdtBase = symbols.gdt) {selector : BitVec 16}
    (level : selector &&& 7 = 0) (inside : selector.toNat + 7 ≤ 23) :
    cpu.table.find selector =
      some (quad cpu.mem (symbols.gdt + selector.setWidth 32)) := by
  have low := stored.gdtLow
  have within : selector.toNat + 7 ≤ cpu.table.limit.toNat := by
    show _ ≤ cpu.gdtLimit.toNat
    rw [limit]
    exact inside
  rw [Table.find, if_pos ⟨level, within⟩]
  show some (quad cpu.view (cpu.gdtBase + _)) = _
  rw [base, Cpu.quad_view (by bv_omega)]

/-- The switch does not fault. -/
theorem protect_eq (stored : symbols.Stored cpu.mem) (flat : cpu.ds.base = 0) :
    protect symbols cpu = some (inProtectedMode symbols cpu) := by
  let before : Cpu :=
    { cpu with
      gdtLimit := 23#16
      gdtBase := symbols.gdt
      cr0 := cpu.cr0 ||| cr0PE }
  let after : Cpu := { before with cs := decode 8 codeDesc, eip := symbols.start32 }
  have code : before.table.loadCode 8 = some (decode 8 codeDesc) := by
    have found := @find_eq symbols before stored rfl rfl 8 (by decide) (by decide)
    rw [show (8 : BitVec 16).setWidth 32 = 8 from rfl, stored.code] at found
    exact loadCode_eq found (by decide) (by decide)
  have data : after.table.loadData 16 = some (decode 16 dataDesc) := by
    have found := @find_eq symbols after stored rfl rfl 16 (by decide) (by decide)
    rw [show (16 : BitVec 16).setWidth 32 = 16 from rfl, stored.data] at found
    exact loadData_eq (by decide) found (by decide) (by decide)
  have stack : after.table.loadStack 16 = some (decode 16 dataDesc) :=
    loadStack_eq data (by decide)
  rw [protect, lgdt_eq stored flat]
  refine (congrArg (· >>= _) code).trans ?_
  refine (congrArg (· >>= _) data).trans ?_
  exact (congrArg (· >>= _) stack).trans rfl

end Protect

/-! ## Arrival -/

/-- The processor is in protected mode, with interrupts off, and its segments leave
addresses as they are. -/
structure Protected (cpu : Cpu) : Prop where
  enabled : cpu.cr0.getLsbD 0 = true
  interrupts : cpu.interrupts = false
  code : cpu.cs.Flat ∧ cpu.cs.code = true
  data : cpu.ds.Flat
  extra : cpu.es.Flat
  stack : cpu.ss.Flat

theorem protected_inProtectedMode {symbols : Symbols} {cpu : Cpu}
    (off : cpu.interrupts = false) :
    Protected (inProtectedMode symbols cpu) := by
  refine ⟨?_, off, flat_code, flat_data.1, flat_data.1, flat_data.1⟩
  show (cpu.cr0 ||| cr0PE).getLsbD 0 = true
  simp

/-- The controller gets both bytes, whatever it was doing before. -/
theorem exists_seta20 (pace : Pace) (keyboard : Controller) :
    ∃ bound after, after.input = some (.data, 0xdf) ∧ after.expects = true ∧
      ∀ fuel ≥ bound, seta20 pace fuel keyboard = some after := by
  rcases @exists_waitLoop pace keyboard with ⟨first, _, loops⟩
  rcases @exists_waitLoop pace (write pace .command 0xd1 first) with
    ⟨second, waited, loops'⟩
  refine ⟨max keyboard.busy (write pace .command 0xd1 first).busy + 1,
    write pace .data 0xdf second, rfl, ?_, fun fuel enough => ?_⟩
  · exact waited.expects
  · rw [seta20, loops fuel (by omega)]
    refine (congrArg (· >>= _) (loops' fuel (by omega))).trans ?_
    rfl

/-- `bootmain` is called on the stack below the boot block, and the bytes that let
the address line through are with the controller. -/
structure AtBootmain (symbols : Symbols) (before cpu : Cpu) : Prop where
  protectedMode : Protected cpu
  eip : cpu.eip = symbols.bootmain
  esp : cpu.esp = symbols.start - 4
  mem : cpu.mem = setWord (symbols.start - 4) symbols.after before.mem
  cr0 : cpu.cr0 = before.cr0 ||| cr0PE
  waiting : cpu.keyboard.input = some (.data, 0xdf)
  keyboard : cpu.keyboard.take.output = 0xdf

theorem exists_bootasm (pace : Pace) {symbols : Symbols} {cpu : Cpu}
    (stored : symbols.Stored cpu.mem) (low : symbols.start.toNat < 2 ^ 20)
    (room : 4 ≤ symbols.start.toNat) :
    ∃ bound after, AtBootmain symbols cpu after ∧
      ∀ fuel ≥ bound, bootasm pace symbols fuel cpu = some after := by
  rcases exists_seta20 pace cpu.keyboard with
    ⟨bound, keyboard, input, expects, opens⟩
  let before : Cpu := { zeroSegments cpu with keyboard }
  have switched := @protect_eq symbols before stored rfl
  let inside : Cpu := { inProtectedMode symbols before with esp := symbols.start }
  have place : inside.bus (inside.ss.base + (symbols.start - 4)) =
      symbols.start - 4 := by
    have flat : inside.ss.base = 0 := flat_data.1.base
    rw [flat]
    refine (congrArg _ (BitVec.zero_add _)).trans (Cpu.bus_low ?_)
    bv_omega
  refine ⟨bound, { inside.push symbols.after with eip := symbols.bootmain }, ?_,
    fun fuel enough => ?_⟩
  · have arrived := @protected_inProtectedMode symbols before rfl
    refine ⟨⟨arrived.enabled, arrived.interrupts, arrived.code, arrived.data,
      arrived.extra, arrived.stack⟩, rfl, rfl, ?_, rfl, input, ?_⟩
    · exact congrArg (setWord · symbols.after cpu.mem) place
    · show keyboard.take.output = 0xdf
      rw [Controller.take, input]
      show (if keyboard.expects then _ else _) = _
      rw [expects]
      rfl
  · rw [bootasm]
    refine (congrArg (· >>= _) (opens fuel enough)).trans ?_
    exact (congrArg (· >>= _) switched).trans rfl

/-- A processor that was started by another one is at the function whose address
it finds, with a nonzero `ebx`. -/
structure AtEntry (symbols : Symbols) (before cpu : Cpu) : Prop where
  protectedMode : Protected cpu
  eip : cpu.eip = word before.mem (symbols.start - 8)
  esp : cpu.esp = word before.mem (symbols.start - 4) - 4
  mem : cpu.mem = setWord (word before.mem (symbols.start - 4) - 4)
    symbols.after before.mem
  ebx : cpu.ebx = 1
  cr0 : cpu.cr0 = before.cr0 ||| cr0PE

theorem exists_bootap {symbols : Symbols} {cpu : Cpu}
    (stored : symbols.Stored cpu.mem) (line : cpu.a20 = true) :
    ∃ after, AtEntry symbols cpu after ∧ bootap symbols cpu = some after := by
  have switched := @protect_eq symbols (zeroSegments cpu) stored rfl
  have arrived := @protected_inProtectedMode symbols (zeroSegments cpu) rfl
  have bus (address : PhysAddr) : cpu.bus address = address := if_pos line
  have view : cpu.view = cpu.mem := funext fun address => congrArg _ (bus address)
  let esp := word cpu.view (symbols.start - 4)
  let inside : Cpu := { inProtectedMode symbols (zeroSegments cpu) with ebx := 1, esp }
  have place : inside.bus (inside.ss.base + (esp - 4)) = esp - 4 := by
    have flat : inside.ss.base = 0 := flat_data.1.base
    rw [flat]
    exact (bus _).trans (BitVec.zero_add _)
  refine ⟨{ inside.push symbols.after with
    eip := word cpu.view (symbols.start - 8) }, ?_, ?_⟩
  · refine ⟨⟨arrived.enabled, arrived.interrupts, arrived.code, arrived.data,
      arrived.extra, arrived.stack⟩, ?_, ?_, ?_, rfl, rfl⟩
    · exact congrArg (word · (symbols.start - 8)) view
    · exact congrArg (word · (symbols.start - 4) - 4) view
    · rw [← congrArg (word · (symbols.start - 4)) view]
      exact congrArg (setWord · symbols.after cpu.mem) place
  · exact (congrArg (· >>= _) switched).trans rfl

end Rt64.Boot.Bootasm
