import Rt64.Kernel.Trapinit

/-!
# Descriptors as the processor decodes them

`mkgate` scatters the address of a handler over three words of the interrupt
descriptor table, and `trapinit` that of the task state segment over two words of
the global one.  Here the processor's side is given, from the layout of the
descriptors: the gate that it finds for a vector, and the segment that it finds
for a selector, if they lie within the limits that were loaded.
-/

namespace Rt64.Kernel.Descriptors

open Rt64.Lib.ByteMemory
open Rt64.Lib.X64
open Rt64.Include.Defs
open Rt64.Kernel.Process
open Rt64.Kernel.Spawn
open Rt64.Kernel.Lapic
open Rt64.Kernel.Acpi
open Rt64.Kernel.Trapinit

/-! ## The code -/

/-- The array `idt`. -/
abbrev Idt : Type := Nat → BitVec 32

/-- `mkgate`. -/
def mkgate (idt : Idt) (n : Nat) (kva : Addr) (pl trap : BitVec 32) : Idt :=
  let n := n * 4
  let trap : BitVec 32 := if trap ≠ 0 then 0x8F00 else 0x8E00
  let idt := Function.update idt (n + 0)
    (((kva &&& 0xFFFF#64) ||| ((segKcode <<< 3) <<< 16)).setWidth 32)
  let idt := Function.update idt (n + 1)
    (((kva &&& 0xFFFF0000#64) ||| trap.setWidth 64 |||
      ((pl &&& 3#32) <<< 13).setWidth 64).setWidth 32)
  let idt := Function.update idt (n + 2) ((kva >>> 32).setWidth 32)
  Function.update idt (n + 3) 0

/-- The gates that `trapinit` makes. -/
def setupIdt (vectors : Nat → Addr) (idt : Idt) : Idt :=
  let idt := (List.range 256).foldl
    (fun idt n => mkgate idt n (vectors n) 0 0) idt
  mkgate idt Trap.tSyscall (vectors Trap.tSyscall) 3 1

/-- The limit and the base of a descriptor table. -/
structure TableRegister where
  limit : BitVec 16
  base : Addr

/-- `lgdt` and `lidt`, with the five words that they build. -/
def loadTable (p : Addr) (size : BitVec 32) : TableRegister where
  limit := (size - 1).setWidth 16
  base := (p >>> 48).setWidth 16 ++ (p >>> 32).setWidth 16 ++
    (p >>> 16).setWidth 16 ++ p.setWidth 16

/-! ## The processor -/

/-- A gate of the interrupt descriptor table. -/
structure GateDescriptor where
  offset : Addr
  selector : BitVec 16
  ist : BitVec 3
  type : BitVec 4
  system : Bool
  dpl : BitVec 2
  present : Bool
deriving DecidableEq

/-- A gate from the words of its entry. -/
def decodeGate (word : Nat → BitVec 32) : GateDescriptor where
  offset := word 2 ++ (word 1).extractLsb' 16 16 ++ (word 0).extractLsb' 0 16
  selector := (word 0).extractLsb' 16 16
  ist := (word 1).extractLsb' 0 3
  type := (word 1).extractLsb' 8 4
  system := !(word 1).getLsbD 12
  dpl := (word 1).extractLsb' 13 2
  present := (word 1).getLsbD 15

/-- The gate of a vector, if its entry lies within the table. -/
def selectGate (idt : Idt) (idtr : TableRegister) (n : Nat) :
    Option GateDescriptor :=
  if 16 * n + 15 ≤ idtr.limit.toNat then
    some (decodeGate fun k => idt (4 * n + k))
  else none

/-- A descriptor of a system segment. -/
structure SystemDescriptor where
  base : Addr
  limit : BitVec 20
  type : BitVec 4
  system : Bool
  dpl : BitVec 2
  present : Bool
  granular : Bool
deriving DecidableEq

/-- A system descriptor from its two halves. -/
def decodeSystem (low high : BitVec 64) : SystemDescriptor where
  base := high.extractLsb' 0 32 ++ low.extractLsb' 56 8 ++
    low.extractLsb' 16 24
  limit := low.extractLsb' 48 4 ++ low.extractLsb' 0 16
  type := low.extractLsb' 40 4
  system := !low.getLsbD 44
  dpl := low.extractLsb' 45 2
  present := low.getLsbD 47
  granular := low.getLsbD 55

/-- The system descriptor of a selector, if its 16 bytes lie within the table. -/
def selectSystem (mem : Memory) (gdtr : TableRegister)
    (selector : BitVec 64) : Option SystemDescriptor :=
  let index := selector >>> 3
  if 8 * index.toNat + 15 ≤ gdtr.limit.toNat then
    some (decodeSystem (load64 mem (gdtAddr gdtr.base index))
      (load64 mem (gdtAddr gdtr.base (index + 1))))
  else none

/-! ## The words of a gate -/

/-- What `mkgate` writes to an entry. -/
def gateWords (kva : Addr) (pl trap : BitVec 32) : Nat → BitVec 32
  | 0 => ((kva &&& 0xFFFF#64) ||| ((segKcode <<< 3) <<< 16)).setWidth 32
  | 1 => ((kva &&& 0xFFFF0000#64) |||
      (if trap ≠ 0 then 0x8F00#32 else 0x8E00#32).setWidth 64 |||
      ((pl &&& 3#32) <<< 13).setWidth 64).setWidth 32
  | 2 => (kva >>> 32).setWidth 32
  | _ => 0

/-- `mkgate` writes one entry. -/
theorem mkgate_apply (idt : Idt) (n : Nat) (kva : Addr) (pl trap : BitVec 32)
    (i : Nat) :
    mkgate idt n kva pl trap i =
      if i / 4 = n then gateWords kva pl trap (i % 4) else idt i := by
  have split : i = 4 * (i / 4) + i % 4 := (Nat.div_add_mod i 4).symm
  have word : i % 4 < 4 := Nat.mod_lt i (by decide)
  generalize i / 4 = m at split ⊢
  generalize i % 4 = k at split word ⊢
  subst split
  unfold mkgate
  by_cases same : m = n
  · subst same
    rw [if_pos rfl]
    obtain rfl | rfl | rfl | rfl : k = 0 ∨ k = 1 ∨ k = 2 ∨ k = 3 := by omega
    all_goals
      simp [gateWords, Nat.mul_comm m 4]
  · rw [if_neg same]
    simp only [Function.update_apply]
    rw [if_neg (by omega), if_neg (by omega), if_neg (by omega),
      if_neg (by omega)]

theorem foldl_mkgate (vectors : Nat → Addr) (idt : Idt) (count i : Nat) :
    (List.range count).foldl (fun idt n => mkgate idt n (vectors n) 0 0) idt i =
      if i / 4 < count then gateWords (vectors (i / 4)) 0 0 (i % 4)
      else idt i := by
  induction count with
  | zero => rfl
  | succ count induction =>
      rw [List.range_succ, List.foldl_append, List.foldl_cons, List.foldl_nil,
        mkgate_apply, induction]
      by_cases last : i / 4 = count
      · rw [if_pos last, if_pos (by omega), last]
      · by_cases before : i / 4 < count
        · rw [if_neg last, if_pos before, if_pos (by omega)]
        · rw [if_neg last, if_neg before, if_neg (by omega)]

theorem setupIdt_apply (vectors : Nat → Addr) (idt : Idt) {n k : Nat}
    (inTable : n < 256) (word : k < 4) :
    setupIdt vectors idt (4 * n + k) =
      if n = Trap.tSyscall then gateWords (vectors n) 3 1 k
      else gateWords (vectors n) 0 0 k := by
  have entry : (4 * n + k) / 4 = n := by omega
  have place : (4 * n + k) % 4 = k := by omega
  rw [setupIdt, mkgate_apply, foldl_mkgate, entry, place, if_pos inTable]
  split
  · rename_i same
    rw [same]
  · rfl

/-! ## Decoding a gate -/

theorem extractLsb'_congr {width width' : Nat} {left : BitVec width}
    {right : BitVec width'} {start start' size : Nat}
    (bits : ∀ i < size,
      left.getLsbD (start + i) = right.getLsbD (start' + i)) :
    left.extractLsb' start size = right.extractLsb' start' size := by
  apply BitVec.eq_of_getLsbD_eq
  intro i bound
  rw [BitVec.getLsbD_extractLsb', BitVec.getLsbD_extractLsb', bits i bound]

section Gate

variable (kva : Addr) (pl trap : BitVec 32) {i : Nat}

/-- The type, the present bit and the privilege level of a gate. -/
def attributes (pl trap : BitVec 32) : BitVec 32 :=
  (if trap ≠ 0 then 0x8F00#32 else 0x8E00#32) ||| ((pl &&& 3#32) <<< 13)

/-- The attributes stay within their half of the word. -/
theorem attributes_getLsbD (above : 16 ≤ i) :
    (attributes pl trap).getLsbD i = false := by
  have level : (pl &&& 3#32).getLsbD (i - 13) = false := by
    rw [BitVec.getLsbD_and]
    have mask : (3#32).getLsbD (i - 13) = false := by
      rw [← BitVec.testBit_toNat]
      exact Nat.testBit_lt_two_pow
        ((show (3#32).toNat < 2 ^ 2 by decide).trans_le
          (Nat.pow_le_pow_right (by decide) (by omega)))
    rw [mask, Bool.and_false]
  have type : (if trap ≠ 0 then 0x8F00#32 else 0x8E00#32).getLsbD i =
      false := by
    rw [← BitVec.testBit_toNat]
    refine Nat.testBit_lt_two_pow (Nat.lt_of_lt_of_le ?_
      (Nat.pow_le_pow_right (show 0 < 2 by decide) above))
    split <;> decide
  rw [attributes, BitVec.getLsbD_or, BitVec.getLsbD_shiftLeft, level, type]
  simp

/-- The selector and the lowest part of the address. -/
theorem gateWords_zero (bound : i < 32) :
    (gateWords kva pl trap 0).getLsbD i =
      if i < 16 then kva.getLsbD i else (8#16).getLsbD (i - 16) := by
  rw [gateWords, BitVec.getLsbD_setWidth, BitVec.getLsbD_or,
    getLsbD_and_mask kva mask16 (by decide)]
  by_cases low : i < 16
  · have selector : ((segKcode <<< 3) <<< 16).getLsbD i = false := by
      interval_cases i <;> rfl
    rw [selector]
    simp [low, bound]
  · have selector : ((segKcode <<< 3) <<< 16).getLsbD i =
        (8#16).getLsbD (i - 16) := by
      interval_cases i <;> first | omega | rfl
    rw [selector]
    simp [low, bound]

/-- The attributes and the middle part of the address. -/
theorem gateWords_one (bound : i < 32) :
    (gateWords kva pl trap 1).getLsbD i =
      if i < 16 then (attributes pl trap).getLsbD i else kva.getLsbD i := by
  have wide : (if trap ≠ 0 then 0x8F00#32 else 0x8E00#32).setWidth 64 |||
      ((pl &&& 3#32) <<< 13).setWidth 64 =
        (attributes pl trap).setWidth 64 := by
    rw [attributes, BitVec.setWidth_or]
  have mask : (0xFFFF0000#64).getLsbD i = decide (16 ≤ i) := by
    interval_cases i <;> rfl
  rw [gateWords, BitVec.or_assoc, wide, BitVec.getLsbD_setWidth,
    BitVec.getLsbD_or, BitVec.getLsbD_and, mask, BitVec.getLsbD_setWidth]
  by_cases low : i < 16
  · have below : ¬ 16 ≤ i := by omega
    have inside : i < 64 := by omega
    simp [low, bound, below, inside]
  · have above : 16 ≤ i := by omega
    rw [attributes_getLsbD pl trap above]
    simp [low, bound, above]

/-- The processor finds the handler. -/
theorem gateWords_offset :
    gateWords kva pl trap 2 ++ (gateWords kva pl trap 1).extractLsb' 16 16 ++
      (gateWords kva pl trap 0).extractLsb' 0 16 = kva := by
  apply BitVec.eq_of_getLsbD_eq
  intro i bound
  rw [BitVec.getLsbD_append, BitVec.getLsbD_append,
    BitVec.getLsbD_extractLsb', BitVec.getLsbD_extractLsb']
  by_cases low : i < 16
  · rw [gateWords_zero kva pl trap (show 0 + i < 32 by omega), Nat.zero_add]
    simp [low]
  by_cases middle : i - 16 < 16
  · have place : 16 + (i - 16) = i := by omega
    rw [place, gateWords_one kva pl trap (show i < 32 by omega)]
    simp [low, middle]
  · have place : 32 + (i - 16 - 16) = i := by omega
    have inside : i - 16 - 16 < 32 := by omega
    simp [gateWords, low, middle, place, inside]

/-- A field of the attributes. -/
theorem gateWords_attribute {start size : Nat} (inside : start + size ≤ 16) :
    (gateWords kva pl trap 1).extractLsb' start size =
      (attributes pl trap).extractLsb' start size := by
  apply extractLsb'_congr
  intro i bound
  rw [gateWords_one kva pl trap (by omega), if_pos (by omega)]

theorem gateWords_selector :
    (gateWords kva pl trap 0).extractLsb' 16 16 = 8#16 := by
  apply BitVec.eq_of_getLsbD_eq
  intro i bound
  rw [BitVec.getLsbD_extractLsb', gateWords_zero kva pl trap (by omega),
    if_neg (by omega), Nat.add_sub_cancel_left]
  simp [bound]

end Gate

/-- The interrupt gate of a handler. -/
def interruptGate (handler : Addr) : GateDescriptor where
  offset := handler
  selector := (segKcode <<< 3).setWidth 16
  ist := 0
  type := 0xE
  system := true
  dpl := 0
  present := true

/-- The trap gate of a handler, for user mode. -/
def userTrapGate (handler : Addr) : GateDescriptor :=
  { interruptGate handler with type := 0xF, dpl := 3 }

/-- A gate that `mkgate` has written. -/
theorem decode_gateWords (kva : Addr) (pl trap : BitVec 32) :
    decodeGate (gateWords kva pl trap) =
      { offset := kva
        selector := 8
        ist := (attributes pl trap).extractLsb' 0 3
        type := (attributes pl trap).extractLsb' 8 4
        system := !(attributes pl trap).getLsbD 12
        dpl := (attributes pl trap).extractLsb' 13 2
        present := (attributes pl trap).getLsbD 15 } := by
  rw [decodeGate, gateWords_offset, gateWords_selector,
    gateWords_attribute kva pl trap (by decide),
    gateWords_attribute kva pl trap (by decide),
    gateWords_attribute kva pl trap (by decide),
    gateWords_one kva pl trap (by decide),
    gateWords_one kva pl trap (by decide)]
  rfl

/-- Every entry of the table that `trapinit` has set up. -/
theorem decode_setupIdt (vectors : Nat → Addr) (idt : Idt) {n : Nat}
    (inTable : n < 256) :
    (decodeGate fun k => setupIdt vectors idt (4 * n + k)) =
      if n = Trap.tSyscall then userTrapGate (vectors n)
      else interruptGate (vectors n) := by
  have words (pl trap : BitVec 32)
      (written : ∀ k < 4, setupIdt vectors idt (4 * n + k) =
        gateWords (vectors n) pl trap k) :
      (decodeGate fun k => setupIdt vectors idt (4 * n + k)) =
        decodeGate (gateWords (vectors n) pl trap) := by
    simp only [decodeGate, written 0 (by decide), written 1 (by decide),
      written 2 (by decide)]
  have apply := fun k bound => @setupIdt_apply vectors idt n k inTable bound
  split
  · rename_i isSyscall
    rw [words 3 1 fun k bound => by rw [apply k bound, if_pos isSyscall],
      decode_gateWords]
    rfl
  · rename_i other
    rw [words 0 0 fun k bound => by rw [apply k bound, if_neg other],
      decode_gateWords]
    rfl

/-- The gate of the table as the machine model has it. -/
def GateDescriptor.gate (descriptor : GateDescriptor) : Gate where
  handler := descriptor.offset
  selector := descriptor.selector
  dpl := descriptor.dpl.toNat
  trapGate := descriptor.type == 0xF

/-- The gates that the processor finds are those of `Trap.idt`. -/
theorem decode_eq_idt (text : Trap.Text) (idt : Idt) {n : Nat}
    (inTable : n < 256) :
    (decodeGate fun k => setupIdt text.vectors idt (4 * n + k)).gate =
      Trap.idt text n := by
  rw [decode_setupIdt text.vectors idt inTable, Trap.idt]
  split
  · rename_i isSyscall
    subst isSyscall
    rw [Function.update_self]
    rfl
  · rename_i other
    rw [Function.update_of_ne other]
    rfl

/-! ## The table registers -/

theorem loadTable_base (p : Addr) (size : BitVec 32) :
    (loadTable p size).base = p := by
  apply BitVec.eq_of_getLsbD_eq
  intro i bound
  rw [loadTable, BitVec.getLsbD_append, BitVec.getLsbD_append,
    BitVec.getLsbD_append]
  simp only [BitVec.getLsbD_setWidth, BitVec.getLsbD_ushiftRight]
  by_cases first : i < 16
  · simp [first]
  by_cases second : i - 16 < 16
  · have place : 16 + (i - 16) = i := by omega
    simp [first, second, place]
  by_cases third : i - 16 - 16 < 16
  · have place : 32 + (i - 16 - 16) = i := by omega
    simp [first, second, third, place]
  · have last : i - 16 - 16 - 16 < 16 := by omega
    have place : 48 + (i - 16 - 16 - 16) = i := by omega
    simp [first, second, third, last, place]

/-! ## The global descriptor table -/

/-- The descriptor of the task state segment at the given address. -/
def tssSegment (addr : Addr) : SystemDescriptor where
  base := addr
  limit := 0x67
  type := 9
  system := true
  dpl := 3
  present := true
  granular := false

section Tss

variable (addr : Addr)

/-- The parts of the address. -/
theorem tssDescriptor_address :
    (tssDescriptor addr).extractLsb' 16 24 = addr.extractLsb' 0 24 ∧
      (tssDescriptor addr).extractLsb' 56 8 = addr.extractLsb' 24 8 := by
  constructor
  · apply extractLsb'_congr
    intro i bound
    rw [@tssDescriptor_getLsbD addr (16 + i) (by omega), if_neg (by omega),
      if_pos (by omega), Nat.add_sub_cancel_left, Nat.zero_add]
  · apply extractLsb'_congr
    intro i bound
    have place : 56 + i - 32 = 24 + i := by omega
    rw [@tssDescriptor_getLsbD addr (56 + i) (by omega), if_neg (by omega),
      if_neg (by omega), if_neg (by omega), place]

/-- The fields in the access byte and above it. -/
theorem tssDescriptor_access {start size : Nat} (low : 40 ≤ start)
    (high : start + size ≤ 56) :
    (tssDescriptor addr).extractLsb' start size =
      (0xE9#64).extractLsb' (start - 40) size := by
  apply extractLsb'_congr
  intro i bound
  have place : start + i - 40 = start - 40 + i := by omega
  rw [@tssDescriptor_getLsbD addr (start + i) (by omega), if_neg (by omega),
    if_neg (by omega), if_pos (by omega), place]

theorem tssDescriptor_lowLimit :
    (tssDescriptor addr).extractLsb' 0 16 = (0x67#64).extractLsb' 0 16 := by
  apply extractLsb'_congr
  intro i bound
  rw [@tssDescriptor_getLsbD addr (0 + i) (by omega), if_pos (by omega)]

/-- An address from its three parts. -/
theorem address_of_parts :
    (addr >>> 32).extractLsb' 0 32 ++ addr.extractLsb' 24 8 ++
      addr.extractLsb' 0 24 = addr := by
  apply BitVec.eq_of_getLsbD_eq
  intro i bound
  rw [BitVec.getLsbD_append, BitVec.getLsbD_append]
  simp only [BitVec.getLsbD_extractLsb', BitVec.getLsbD_ushiftRight]
  by_cases low : i < 24
  · simp [low]
  by_cases middle : i - 24 < 8
  · have place : 24 + (i - 24) = i := by omega
    simp [low, middle, place]
  · have inside : i - 24 - 8 < 32 := by omega
    have place : 32 + (0 + (i - 24 - 8)) = i := by omega
    simp only [low, middle, inside, place, if_false, decide_true,
      Bool.true_and]

theorem decode_tssDescriptor :
    decodeSystem (tssDescriptor addr) (tssDescriptorHigh addr) =
      tssSegment addr := by
  have bit := fun i bound => @tssDescriptor_getLsbD addr i bound
  rw [decodeSystem, (tssDescriptor_address addr).1,
    (tssDescriptor_address addr).2, tssDescriptorHigh, address_of_parts,
    tssDescriptor_lowLimit, tssDescriptor_access addr (by decide) (by decide),
    tssDescriptor_access addr (by decide) (by decide),
    tssDescriptor_access addr (by decide) (by decide), bit 44 (by decide),
    bit 47 (by decide), bit 55 (by decide)]
  rfl

end Tss

/-- The code and data descriptors, as the source gives them. -/
def segments : Nat → BitVec 64
  | 1 => 0x0020980000000000
  | 2 => 0x0000920000000000
  | 4 => 0x0020F80000000000
  | 5 => 0x0000F20000000000
  | _ => 0

section Page

variable (page : Addr) (mem : Memory)

/-- Two entries of the table do not overlap. -/
theorem gdtAddr_apart {i j : BitVec 64} (different : i ≠ j)
    (iBound : i.toNat < 8) (jBound : j.toNat < 8) :
    Apart (gdtAddr page i) 8 (gdtAddr page j) 8 := by
  have apart : i.toNat ≠ j.toNat := fun same =>
    different (BitVec.eq_of_toNat_eq same)
  rcases Nat.lt_or_gt_of_ne apart with less | greater
  · exact apart_of_offsets page (by omega) (by omega)
  · exact (apart_of_offsets page (by omega) (by omega)).symm

/-- An entry after a store to one of them. -/
theorem load_store_gdt {i j : BitVec 64} (iBound : i.toNat < 8)
    (jBound : j.toNat < 8) (value : BitVec 64) :
    load64 (store64 mem (gdtAddr page j) value) (gdtAddr page i) =
      if i = j then value else load64 mem (gdtAddr page i) := by
  split
  · rename_i same
    rw [same, load64_store64_same]
  · rename_i different
    exact load64_store64_apart _ _ _ _
      (gdtAddr_apart page different iBound jBound)

/-- The table that `trapinit` leaves. -/
theorem load_setupPage {i : BitVec 64} (bound : i.toNat < 8) :
    load64 (setupPage page mem) (gdtAddr page i) =
      if i = segTss + 1 then tssDescriptorHigh (tssAddr page 0)
      else if i = segTss then tssDescriptor (tssAddr page 0)
      else segments i.toNat := by
  have entry {mem : Memory} {j : BitVec 64} (value : BitVec 64)
      (inTable : j.toNat < 8) :=
    load_store_gdt page mem bound inTable value
  rw [setupPage, entry _ (by decide), entry _ (by decide),
    entry _ (by decide), entry _ (by decide), entry _ (by decide),
    entry _ (by decide), entry _ (by decide), entry _ (by decide)]
  obtain ⟨n, small, rfl⟩ : ∃ n, n < 8 ∧ i = BitVec.ofNat 64 n :=
    ⟨i.toNat, bound, (BitVec.ofNat_toNat 64 i).symm⟩
  interval_cases n <;> rfl

end Page

/-! ## The descriptors after trapinit -/

/--
For all addresses of handlers and wherever the page of the processor is, after
`trapinit` the processor finds within the tables it has been given: for each
vector an interrupt gate of privilege level 0 with its handler, but for system
calls a trap gate of level 3; for the selector of the task state segment an
available 64-bit segment at its address; and the code and data descriptors as
they were written.
-/
theorem trapinit_descriptors {tls : Addr} {lapic : Registers}
    {rflags : BitVec 64} {smp : Smp} {mem : Memory} {booted : Booted}
    (ran : trapinit tls lapic rflags smp mem = .ok booted)
    (vectors : Nat → Addr) (idtAddr : Addr) (idt : Idt) :
    (∀ n < 256, selectGate (setupIdt vectors idt) (loadTable idtAddr 4096) n =
        some (if n = Trap.tSyscall then userTrapGate (vectors n)
          else interruptGate (vectors n))) ∧
      selectSystem booted.mem (loadTable booted.tls (8 * 8)) (segTss <<< 3) =
        some (tssSegment (tssAddr booted.tls 0)) ∧
      ∀ i < 6, load64 booted.mem
        (gdtAddr booted.tls (BitVec.ofNat 64 i)) = segments i := by
  rcases trapinit_eq_ok ran with ⟨_, _, _, _, isMem⟩
  rw [isMem]
  refine ⟨?_, ?_, ?_⟩
  · intro n inTable
    have limit : (loadTable idtAddr 4096).limit.toNat = 4095 := rfl
    rw [selectGate, if_pos (by omega), decode_setupIdt vectors idt inTable]
  · have limit : (loadTable booted.tls (8 * 8)).limit.toNat = 63 := rfl
    have index : segTss <<< 3 >>> 3 = segTss := by decide
    rw [selectSystem, index, loadTable_base, limit,
      load_setupPage booted.tls mem (by decide),
      load_setupPage booted.tls mem (by decide)]
    exact congrArg some (decode_tssDescriptor _)
  · intro i bound
    rw [load_setupPage booted.tls mem
      (show (BitVec.ofNat 64 i).toNat < 8 by rw [BitVec.toNat_ofNat]; omega)]
    interval_cases i <;> rfl

/-- The first processor, with handlers that differ in every part of their
addresses. -/
theorem trapinit_descriptors_first :
    ∃ booted, trapinit sampleTls (fun _ => 0) 0 sampleSmp (fun _ => 0) =
        .ok booted ∧
      selectGate (setupIdt (fun n => 0x123456789ABC0000 + BitVec.ofNat 64 n)
          fun _ => 0) (loadTable 0 4096) Trap.tSyscall =
        some (userTrapGate 0x123456789ABC0040) ∧
      selectSystem booted.mem (loadTable booted.tls (8 * 8)) (segTss <<< 3) =
        some (tssSegment (sampleTls + 1024)) := by
  have described := trapinit_descriptors sample_trapinit
    (fun n => 0x123456789ABC0000 + BitVec.ofNat 64 n) 0 fun _ => 0
  exact ⟨_, sample_trapinit, described.1 Trap.tSyscall (by decide),
    described.2.1⟩

end Rt64.Kernel.Descriptors
