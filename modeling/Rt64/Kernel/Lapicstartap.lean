import Rt64.Include.Access
import Rt64.Kernel.Lapic
import Rt64.Lib.InterProcessor

/-!
# The start of other processors

`lapicstartap` of `lapic.c` asks another processor to run the code at an address: it
sends an INIT, the end of the INIT, and the same startup message twice.  For
processors that do not know startup messages, it leaves the address in the warm reset
vector, and asks the firmware for a warm reset.

`lapicinit` and `lapiceoi` write to the same registers, and `lapicinit` sends a
message to all processors.  All of them use the registers through a pointer, which is
null until `lapicinit` sets it.
-/

namespace Rt64.Kernel.Lapicstartap

open Rt64.Lib.ByteMemory
open Rt64.Lib.InterProcessor
open Rt64.Include.Defs
open Rt64.Include.Access
open Rt64.Kernel.Trap
open Rt64.Kernel.Lapic hiding lapicw lapicinit

/-! ## The code -/

/-- The address of the device at a physical address. -/
def io2v (physical : BitVec 64) : Addr :=
  physical - 0xFE000000 + devbase

/-- Where the registers are. -/
abbrev registers : Addr := io2v 0xFEE00000

/-- The processor `self` with its local APIC, the processors by the numbers of theirs,
the memory of the clock, and main memory. -/
structure Bus where
  self : Byte
  /-- The variable `lapic`. -/
  pointer : Addr
  lapic : Registers
  processors : Byte → Processor
  cmosIndex : Byte
  cmos : Byte → Byte
  mem : Memory

def Bus.setLapic (bus : Bus) (lapic : Registers) : Bus :=
  { bus with lapic }

/-- A write to a register. -/
def write (index : Nat) (value : BitVec 32) (bus : Bus) : Bus :=
  { bus with
    lapic := Lapic.lapicw index value bus.lapic
    processors :=
      if index = icrloIndex then
        send bus.self (bus.lapic icrhiIndex) value bus.processors
      else bus.processors }

/-- `lapicw`; with a null pointer nothing is mapped where it writes. -/
def lapicw (index : Nat) (value : BitVec 32) (bus : Bus) : Except Stop Bus :=
  if bus.pointer = registers then .ok (write index value bus)
  else .error (.fault (bus.pointer + BitVec.ofNat 64 (4 * index)))

abbrev ioRtc : BitVec 16 := 0x70

/-- `outb` to the two ports of the clock. -/
def outb (port : BitVec 16) (data : Byte) (bus : Bus) : Bus :=
  if port = ioRtc then { bus with cmosIndex := data }
  else if port = ioRtc + 1 then
    { bus with cmos := Function.update bus.cmos bus.cmosIndex data }
  else bus

/-- The entry of the performance counters, where there is one. -/
def maskCounters (bus : Bus) : Except Stop Bus :=
  if HasPcint bus.lapic then lapicw pcintIndex masked bus else .ok bus

def lapicinit (bus : Bus) : Except Stop Bus := do
  let bus := { bus with pointer := registers }
  let bus ← lapicw svrIndex
    (enable ||| BitVec.ofNat 32 (tIrq0 + irqSpurious)) bus
  let bus ← lapicw tdcrIndex x1 bus
  let bus ← lapicw timerIndex
    (periodic ||| BitVec.ofNat 32 (tIrq0 + irqTimer)) bus
  let bus ← lapicw ticrIndex lapicTimerPeriod bus
  let bus ← lapicw lint0Index masked bus
  let bus ← lapicw lint1Index masked bus
  let bus ← maskCounters bus
  let bus ← lapicw errorIndex (BitVec.ofNat 32 (tIrq0 + irqError)) bus
  let bus ← lapicw esrIndex 0 bus
  let bus ← lapicw esrIndex 0 bus
  let bus ← lapicw eoiIndex 0 bus
  let bus ← lapicw icrhiIndex 0 bus
  let bus ← lapicw icrloIndex (bcast ||| init ||| level) bus
  lapicw tprIndex 0 bus

def lapiceoi (bus : Bus) : Except Stop Bus :=
  lapicw eoiIndex 0 bus

abbrev startup : BitVec 32 := 0x600
abbrev lapicAssert : BitVec 32 := 0x4000

/-- `wrv`, the warm reset vector. -/
abbrev wrv : Addr := p2v (0x40 <<< 4 ||| 0x67)

/-- `lapicstartap`; `microdelay` does nothing. -/
def lapicstartap (apicid : Byte) (addr : BitVec 32) (bus : Bus) :
    Except Stop Bus := do
  let bus := outb ioRtc 0xF bus
  let bus := outb (ioRtc + 1) 0x0A bus
  let mem := store bus.mem wrv 2 (0 : BitVec 16)
  let mem := store mem (wrv + 2) 2 ((addr >>> 4).setWidth 16)
  let bus := { bus with mem }
  let bus ← lapicw icrhiIndex (apicid.setWidth 32 <<< 24) bus
  let bus ← lapicw icrloIndex (init ||| level ||| lapicAssert) bus
  let bus ← lapicw icrloIndex (init ||| level) bus
  (List.range 2).foldlM (fun bus _ => do
    let bus ← lapicw icrhiIndex (apicid.setWidth 32 <<< 24) bus
    lapicw icrloIndex (startup ||| addr >>> 12) bus) bus

/-! ## The messages -/

/-- A processor that can be started, and where. -/
structure Startable (sender apicid : Byte) (addr : BitVec 32) : Prop where
  one : apicid ≠ everyone
  other : apicid ≠ sender
  isAligned : addr.toNat % 4096 = 0
  low : addr.toNat < 2 ^ 20

section Messages

variable {bus : Bus} {apicid : Byte} {addr : BitVec 32}

theorem lapicw_eq (known : bus.pointer = registers) (index : Nat)
    (value : BitVec 32) : lapicw index value bus = .ok (write index value bus) :=
  if_pos known

/-- Two writes, the second one to the lower half of the command. -/
theorem processors_write_write (high low : BitVec 32)
    (named : destination high = apicid) (single : shorthand low = 0)
    (one : apicid ≠ everyone) :
    (write icrloIndex low (write icrhiIndex high bus)).processors =
      Function.update bus.processors apicid
        ((bus.processors apicid).accept low) := by
  subst named
  have sent : (write icrloIndex low (write icrhiIndex high bus)).processors =
      send bus.self high low bus.processors := rfl
  rw [sent]
  exact send_single single one

/-- The upper half stays, and so the next message goes to the same processor. -/
theorem processors_write {high low low' : BitVec 32}
    (named : destination high = apicid) (single : shorthand low' = 0)
    (one : apicid ≠ everyone) :
    (write icrloIndex low' (write icrloIndex low
        (write icrhiIndex high bus))).processors =
      Function.update
        (write icrloIndex low (write icrhiIndex high bus)).processors apicid
        (((write icrloIndex low (write icrhiIndex high bus)).processors
          apicid).accept low') := by
  subst named
  have sent : (write icrloIndex low' (write icrloIndex low
      (write icrhiIndex high bus))).processors =
      send bus.self high low'
        (write icrloIndex low (write icrhiIndex high bus)).processors := rfl
  rw [sent]
  exact send_single single one

/-- The upper half names the processor. -/
theorem destination_eq (apicid : Byte) :
    destination (apicid.setWidth 32 <<< 24) = apicid := by
  revert apicid
  decide +kernel

/-- The message for a page of the first megabyte. -/
theorem startup_page (page : Byte) :
    shorthand (startup ||| page.setWidth 32) = 0 ∧
      deliveryMode (startup ||| page.setWidth 32) = modeStartup ∧
      vector (startup ||| page.setWidth 32) = page := by
  revert page
  decide +kernel

/-- However a processor is, the four messages start it once. -/
theorem accept_sequence (processor : Processor) (page : Byte) :
    (((processor.accept (init ||| level ||| lapicAssert)).accept
        (init ||| level)).accept (startup ||| page.setWidth 32)).accept
          (startup ||| page.setWidth 32) =
      ⟨.running, processor.starts ++ [page.setWidth 32 <<< 12]⟩ := by
  have reset : processor.accept (init ||| level ||| lapicAssert) =
      { processor with activity := .waiting } :=
    accept_init (by decide) (by decide)
  have deasserted (processor : Processor) :
      processor.accept (init ||| level) = processor :=
    accept_deassert (by decide) (by decide) (by decide)
  rcases startup_page page with ⟨_, mode, number⟩
  rw [reset, deasserted, accept_startup mode, accept_startup mode, number]

theorem Startable.page {sender : Byte}
    (startable : Startable sender apicid addr) :
    ∃ page : Byte, addr >>> 12 = page.setWidth 32 ∧
      page.setWidth 32 <<< 12 = addr := by
  have isAligned := startable.isAligned
  have low := startable.low
  refine ⟨BitVec.ofNat 8 (addr.toNat / 4096), ?_, ?_⟩
  · apply BitVec.eq_of_toNat_eq
    rw [BitVec.toNat_ushiftRight, Nat.shiftRight_eq_div_pow, BitVec.toNat_setWidth,
      BitVec.toNat_ofNat]
    omega
  · apply BitVec.eq_of_toNat_eq
    rw [BitVec.toNat_shiftLeft, Nat.shiftLeft_eq, BitVec.toNat_setWidth,
      BitVec.toNat_ofNat]
    omega

/-- The vector and the code for a warm reset. -/
def preparedMem (addr : BitVec 32) (mem : Memory) : Memory :=
  store (store mem wrv 2 (0 : BitVec 16)) (wrv + 2) 2 ((addr >>> 4).setWidth 16)

/-- With the pointer, `lapicstartap` starts the processor once, at the address, and
no other one. -/
theorem exists_lapicstartap {sender : Byte} (known : bus.pointer = registers)
    (startable : Startable sender apicid addr) :
    ∃ lapic, lapicstartap apicid addr bus = .ok
      { bus with
        lapic
        cmosIndex := 0xF
        cmos := Function.update bus.cmos 0xF 0x0A
        mem := preparedMem addr bus.mem
        processors := Function.update bus.processors apicid
          ⟨.running, (bus.processors apicid).starts ++ [addr]⟩ } := by
  rcases startable.page with ⟨page, shifted, back⟩
  rcases startup_page page with ⟨single, _, _⟩
  have one := startable.one
  have named := destination_eq apicid
  let prepared : Bus :=
    { bus with
      cmosIndex := 0xF
      cmos := Function.update bus.cmos 0xF 0x0A
      mem := preparedMem addr bus.mem }
  let reset : Bus := write icrloIndex (init ||| level ||| lapicAssert)
    (write icrhiIndex (apicid.setWidth 32 <<< 24) prepared)
  let first : Bus := write icrloIndex (startup ||| addr >>> 12)
    (write icrhiIndex (apicid.setWidth 32 <<< 24)
      (write icrloIndex (init ||| level) reset))
  let last : Bus := write icrloIndex (startup ||| addr >>> 12)
    (write icrhiIndex (apicid.setWidth 32 <<< 24) first)
  have ran : lapicstartap apicid addr bus = .ok last := by
    have writes (index : Nat) (value : BitVec 32) (bus' : Bus)
        (same : bus'.pointer = bus.pointer) :
        lapicw index value bus' = .ok (write index value bus') :=
      lapicw_eq (same.trans known) index value
    show (lapicw icrhiIndex _ prepared >>= _) = _
    rw [writes, bind_ok, writes, bind_ok, writes, bind_ok,
      show List.range 2 = [0, 1] from rfl, List.foldlM_cons, writes, bind_ok,
      writes, bind_ok, List.foldlM_cons, writes, bind_ok, writes, bind_ok,
      List.foldlM_nil]
    all_goals rfl
  have processors : last.processors = Function.update bus.processors apicid
      ⟨.running, (bus.processors apicid).starts ++ [addr]⟩ := by
    rw [processors_write_write _ _ named (shifted ▸ single) one,
      processors_write_write _ _ named (shifted ▸ single) one,
      processors_write named (by decide) one,
      processors_write_write _ _ named (by decide) one]
    simp only [Function.update_self, Function.update_idem]
    rw [shifted, accept_sequence, back]
  refine ⟨last.lapic, ran.trans (congrArg Except.ok ?_)⟩
  rw [← processors]
  rfl

/-- A write that no processor reacts to changes the register only. -/
theorem lapicw_quiet {index : Nat} {value : BitVec 32}
    (known : bus.pointer = registers) (lapic : Registers)
    (quiet : index = icrloIndex → ∀ processor : Processor,
      processor.accept value = processor) :
    lapicw index value (bus.setLapic lapic) =
      .ok (bus.setLapic (Lapic.lapicw index value lapic)) := by
  have pointer : (bus.setLapic lapic).pointer = registers := known
  rw [lapicw_eq pointer, write]
  split
  · rename_i isCommand
    rw [send_ignored (quiet isCommand)]
    rfl
  · rfl

/-- `lapicinit` sets the pointer and then the registers up as in `Lapic.lapicinit`,
and the message that it sends to all processors ends an INIT that none of them has. -/
theorem lapicinit_eq (bus : Bus) :
    lapicinit bus = .ok { bus with
      pointer := registers, lapic := Lapic.lapicinit bus.lapic } := by
  let known : Bus := { bus with pointer := registers }
  have other {index : Nat} (value : BitVec 32) (lapic : Registers)
      (different : index ≠ icrloIndex) :
      lapicw index value (known.setLapic lapic) =
        .ok (known.setLapic (Lapic.lapicw index value lapic)) :=
    lapicw_quiet rfl lapic fun same => absurd same different
  have deassert (lapic : Registers) :
      lapicw icrloIndex (bcast ||| init ||| level) (known.setLapic lapic) =
        .ok (known.setLapic
          (Lapic.lapicw icrloIndex (bcast ||| init ||| level) lapic)) :=
    lapicw_quiet rfl lapic fun _ processor =>
      accept_deassert (by decide) (by decide) (by decide)
  have counters (lapic : Registers) :
      maskCounters (known.setLapic lapic) =
        .ok (known.setLapic (if HasPcint lapic then
          Lapic.lapicw pcintIndex masked lapic else lapic)) := by
    show (if HasPcint lapic then _ else _) = _
    split
    · exact other _ _ (by decide)
    · rfl
  have start : { bus with pointer := registers } = known.setLapic bus.lapic := rfl
  rw [lapicinit, Lapic.lapicinit, start, other _ _ (by decide), bind_ok,
    other _ _ (by decide), bind_ok, other _ _ (by decide), bind_ok,
    other _ _ (by decide), bind_ok, other _ _ (by decide), bind_ok,
    other _ _ (by decide), bind_ok, counters, bind_ok, other _ _ (by decide),
    bind_ok, other _ _ (by decide), bind_ok, other _ _ (by decide), bind_ok,
    other _ _ (by decide), bind_ok, other _ _ (by decide), bind_ok, deassert,
    bind_ok, other _ _ (by decide)]
  rfl

end Messages

/-! ## Runs -/

/-- Calls of the driver's functions on one processor. -/
inductive Call where
  | lapicinit
  | lapiceoi
  | lapicstartap (apicid : Byte) (addr : BitVec 32)

namespace Call

def run : Call → Bus → Except Stop Bus
  | lapicinit, bus => Lapicstartap.lapicinit bus
  | lapiceoi, bus => Lapicstartap.lapiceoi bus
  | lapicstartap apicid addr, bus => Lapicstartap.lapicstartap apicid addr bus

/-- Processors are started one at a time, in a page of the first megabyte. -/
def Sound (sender : Byte) : Call → Prop
  | lapicstartap apicid addr => Startable sender apicid addr
  | _ => True

/-- Where the call is to start the processor. -/
def start (id : Byte) : Call → Option (BitVec 32)
  | lapicstartap apicid addr => if apicid = id then some addr else none
  | _ => none

end Call

def runs (calls : List Call) (bus : Bus) : Except Stop Bus :=
  calls.foldlM (fun bus call => call.run bus) bus

/-- The address in the warm reset vector: a segment after an offset. -/
def warmReset (mem : Memory) : BitVec 32 :=
  BitVec.setWidth 32 (load mem (wrv + 2) 2) <<< 4 +
    BitVec.setWidth 32 (load mem wrv 2)

section Runs

variable {bus : Bus}

/-- A startup leaves its address in the vector. -/
theorem warmReset_preparedMem {apicid : Byte} {addr : BitVec 32} {sender : Byte}
    (startable : Startable sender apicid addr) (mem : Memory) :
    warmReset (preparedMem addr mem) = addr := by
  have isAligned := startable.isAligned
  have low := startable.low
  have apart : Apart wrv 2 (wrv + 2) 2 :=
    @apart_of_offsets wrv 0 2 2 2 (by decide) (by decide)
  rw [warmReset, preparedMem, load_store_same _ _ _ _ (by decide),
    load_store_apart _ _ _ _ _ _ (by decide) apart,
    load_store_same _ _ _ _ (by decide)]
  apply BitVec.eq_of_toNat_eq
  rw [BitVec.toNat_add, BitVec.toNat_shiftLeft, Nat.shiftLeft_eq,
    BitVec.toNat_setWidth, BitVec.toNat_setWidth, BitVec.toNat_setWidth,
    BitVec.toNat_ushiftRight, Nat.shiftRight_eq_div_pow]
  have zero : BitVec.toNat (0 : BitVec 16) = 0 := rfl
  omega

theorem preparedMem_outside {addr : BitVec 32} {mem : Memory} {address : Addr}
    (outside : ¬ Within wrv 4 address) :
    preparedMem addr mem address = mem address := by
  have second : ¬ Within (wrv + 2) 2 address := fun inside =>
    outside (inside.of_offset (Nat.le_refl 4) (by decide))
  have first : ¬ Within wrv 2 address := fun inside =>
    outside (Nat.lt_of_lt_of_le inside (by decide))
  rw [preparedMem, store_outside _ _ _ _ _ second, store_outside _ _ _ _ _ first]

/-- What one call does. -/
structure Ran (call : Call) (before after : Bus) : Prop where
  pointer : after.pointer = registers
  self : after.self = before.self
  processors : ∀ id, after.processors id =
    match call.start id with
    | some addr => ⟨.running, (before.processors id).starts ++ [addr]⟩
    | none => before.processors id
  mem : ∀ address, ¬ Within wrv 4 address →
    after.mem address = before.mem address
  cmos : ∀ i, i ≠ 0xF → after.cmos i = before.cmos i
  vector : ∀ apicid addr, call = .lapicstartap apicid addr →
    after.cmos 0xF = 0x0A ∧ warmReset after.mem = addr

theorem ran_lapicinit (bus : Bus) :
    ∃ after, Call.lapicinit.run bus = .ok after ∧ Ran .lapicinit bus after :=
  ⟨_, lapicinit_eq bus, rfl, rfl, fun _ => rfl, fun _ _ => rfl, fun _ _ => rfl,
    nofun⟩

/-- With the pointer set, every call returns. -/
theorem exists_ran {call : Call} (known : bus.pointer = registers)
    (sound : call.Sound bus.self) :
    ∃ after, call.run bus = .ok after ∧ Ran call bus after := by
  cases call with
  | lapicinit => exact ran_lapicinit bus
  | lapiceoi =>
      have ran : lapiceoi bus =
          .ok (bus.setLapic (Lapic.lapicw eoiIndex 0 bus.lapic)) :=
        @lapicw_quiet bus eoiIndex 0 known bus.lapic
          fun same => absurd same (by decide)
      exact ⟨_, ran, known, rfl, fun _ => rfl, fun _ _ => rfl, fun _ _ => rfl,
        nofun⟩
  | lapicstartap apicid addr =>
      rcases exists_lapicstartap known sound with ⟨lapic, ran⟩
      refine ⟨_, ran, known, rfl, fun id => ?_,
        fun _ outside => preparedMem_outside outside,
        fun _ other => Function.update_of_ne other .., ?_⟩
      · rw [Call.start]
        by_cases same : apicid = id
        · subst same
          rw [if_pos rfl]
          exact Function.update_self ..
        · rw [if_neg same]
          exact Function.update_of_ne (Ne.symm same) ..
      · rintro _ _ ⟨rfl, rfl⟩
        have code : Function.update bus.cmos 0xF 0x0A 0xF = 0x0A :=
          Function.update_self ..
        exact ⟨code, warmReset_preparedMem sound _⟩

/-- The processor after some calls. -/
structure Delivered (id : Byte) (calls : List Call) (before after : Bus) : Prop where
  starts : (after.processors id).starts =
    (before.processors id).starts ++ calls.filterMap (Call.start id)
  activity : (after.processors id).activity =
    if calls.filterMap (Call.start id) = [] then (before.processors id).activity
    else .running

/-- What some calls do. -/
structure Outcome (calls : List Call) (before after : Bus) : Prop where
  delivered : ∀ id, Delivered id calls before after
  mem : ∀ address, ¬ Within wrv 4 address →
    after.mem address = before.mem address
  cmos : ∀ i, i ≠ 0xF → after.cmos i = before.cmos i
  vector : ∀ front apicid addr, calls = front ++ [.lapicstartap apicid addr] →
    after.cmos 0xF = 0x0A ∧ warmReset after.mem = addr

theorem Delivered.cons {id : Byte} {call : Call} {calls : List Call}
    {middle after : Bus} (ran : Ran call bus middle)
    (delivered : Delivered id calls middle after) :
    Delivered id (call :: calls) bus after := by
  have first := ran.processors id
  rcases delivered with ⟨starts, activity⟩
  cases started : call.start id with
  | none =>
      rw [started] at first
      rw [first] at starts activity
      have same : (call :: calls).filterMap (Call.start id) =
          calls.filterMap (Call.start id) := List.filterMap_cons_none started
      exact ⟨same ▸ starts, same ▸ activity⟩
  | some addr =>
      rw [started] at first
      rw [first] at starts activity
      have more : (call :: calls).filterMap (Call.start id) =
          addr :: calls.filterMap (Call.start id) :=
        List.filterMap_cons_some started
      refine ⟨?_, ?_⟩
      · rw [more]
        exact starts.trans (List.append_assoc _ _ _)
      · rw [more, if_neg (List.cons_ne_nil _ _)]
        exact activity.trans (ite_self _)

theorem exists_outcome {calls : List Call} (known : bus.pointer = registers)
    (sound : ∀ call ∈ calls, call.Sound bus.self) :
    ∃ after, runs calls bus = .ok after ∧ Outcome calls bus after := by
  induction calls generalizing bus with
  | nil =>
      refine ⟨bus, rfl, fun _ => ⟨(List.append_nil _).symm, rfl⟩, fun _ _ => rfl,
        fun _ _ => rfl, fun front _ _ empty => ?_⟩
      simp at empty
  | cons call calls induction =>
      rcases exists_ran known (sound call List.mem_cons_self) with
        ⟨middle, first, ran⟩
      rcases @induction middle ran.pointer (fun next inside => by
        rw [ran.self]
        exact sound next (List.mem_cons_of_mem _ inside)) with
        ⟨after, rest, outcome⟩
      refine ⟨after, ?_, fun id => .cons ran (outcome.delivered id),
        fun address outside =>
          (outcome.mem address outside).trans (ran.mem address outside),
        fun i other => (outcome.cmos i other).trans (ran.cmos i other), ?_⟩
      · rw [runs, List.foldlM_cons, first]
        exact rest
      · intro front apicid addr shape
        cases front with
        | nil =>
            rcases List.cons.inj shape with ⟨isLast, rfl⟩
            cases rest
            exact ran.vector apicid addr isLast
        | cons _ front =>
            exact outcome.vector front apicid addr (List.cons.inj shape).2

/-- Before `lapicinit` the other calls get to an address that is not mapped. -/
theorem run_null {call : Call} (null : bus.pointer = 0)
    (other : call ≠ .lapicinit) :
    ∃ address, call.run bus = .error (.fault address) := by
  have unknown : bus.pointer ≠ registers := by
    rw [null]
    decide
  cases call with
  | lapicinit => exact absurd rfl other
  | lapiceoi => exact ⟨_, if_neg unknown⟩
  | lapicstartap apicid addr =>
      refine ⟨bus.pointer + BitVec.ofNat 64 (4 * icrhiIndex), ?_⟩
      have first (bus' : Bus) (same : bus'.pointer = bus.pointer) :
          lapicw icrhiIndex (apicid.setWidth 32 <<< 24) bus' =
            .error (.fault (bus.pointer + BitVec.ofNat 64 (4 * icrhiIndex))) := by
        rw [← same] at unknown ⊢
        exact if_neg unknown
      rw [Call.run, lapicstartap, first]
      all_goals rfl

end Runs

end Rt64.Kernel.Lapicstartap
