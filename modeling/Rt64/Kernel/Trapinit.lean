import Rt64.Kernel.Acpi
import Rt64.Kernel.Lapic

/-!
# Setting up a processor

`trapinit` finds the processor's entry in `cpus`, takes the page of thread-local
storage that goes with it, and writes the descriptor table and the task state
segment to that page.  The processor consults the segment on an entry from user
mode, for the stack, and on an access to a port, for the I/O permission bit map.
-/

namespace Rt64.Kernel.Trapinit

open Rt64.Lib.ByteMemory
open Rt64.Lib.X64
open Rt64.Include.Defs
open Rt64.Kernel.Process
open Rt64.Kernel.Spawn
open Rt64.Kernel.Isolation
open Rt64.Kernel.Trap
open Rt64.Kernel.Main
open Rt64.Kernel.ProcessTable
open Rt64.Kernel.Lapic
open Rt64.Kernel.Acpi

/-! ## The code -/

abbrev segKcpu : BitVec 64 := 3
abbrev segTss : BitVec 64 := 6

/-- The loop over `cpus`. -/
def findCpu (smp : Smp) (lapicId : Byte) : Option Nat :=
  (List.range smp.ncpu).find? fun i => lapicId == (smp.cpus i).index

/-- `&tls[cpuid]`. -/
def tlsLocal (tls : Addr) (cpuid : Nat) : Addr :=
  tls + BitVec.ofNat 64 (4096 * cpuid)

/-- `&gdt[i]` and `&tss[i]` in a page of thread-local storage. -/
def gdtAddr (page : Addr) (i : BitVec 64) : Addr :=
  page + BitVec.ofNat 64 (8 * i.toNat)

def tssAddr (page : Addr) (i : Nat) : Addr :=
  page + BitVec.ofNat 64 (1024 + 4 * i)

/-- `IO Map Base = End of TSS`, as the comment in the source says. -/
abbrev ioMapBaseWord : BitVec 32 := 0x00680000

/-- The two halves of the descriptor of the task state segment. -/
def tssDescriptor (addr : Addr) : BitVec 64 :=
  0x0067#64 ||| ((addr &&& 0xFFFFFF#64) <<< 16) ||| (0x00E9#64 <<< 40) |||
    (((addr >>> 24) &&& 0xFF#64) <<< 56)

def tssDescriptorHigh (addr : Addr) : BitVec 64 :=
  addr >>> 32

/-- `curcpu`, as an index, `curcpu->tls` and the memory. -/
structure Booted where
  curcpu : Nat
  tls : Addr
  mem : Memory

/-- What `trapinit` writes to the page: the task state segment and the descriptor
table. -/
def setupPage (page : Addr) (mem : Memory) : Memory :=
  let mem := store32 mem (tssAddr page 16) ioMapBaseWord
  let mem := store64 mem (gdtAddr page 0) 0x0000000000000000
  let mem := store64 mem (gdtAddr page segKcode) 0x0020980000000000
  let mem := store64 mem (gdtAddr page segUcode) 0x0020F80000000000
  let mem := store64 mem (gdtAddr page segKdata) 0x0000920000000000
  let mem := store64 mem (gdtAddr page segKcpu) 0x0000000000000000
  let mem := store64 mem (gdtAddr page segUdata) 0x0000F20000000000
  let mem := store64 mem (gdtAddr page segTss) (tssDescriptor (tssAddr page 0))
  store64 mem (gdtAddr page (segTss + 1)) (tssDescriptorHigh (tssAddr page 0))

/-- `trapinit` up to the loading of the registers; `tls` is the array of pages.
The gates are in `Trap.idt`. -/
def trapinit (tls : Addr) (lapic : Registers) (rflags : BitVec 64) (smp : Smp)
    (mem : Memory) : Except Halt Booted := do
  let lapicId ← lapicid lapic rflags
  match findCpu smp (lapicId.setWidth 8) with
  | none => .error (.panic .trapinit "cpuid != -1")
  | some cpuid =>
      let page := tlsLocal tls cpuid
      return { curcpu := cpuid, tls := page, mem := setupPage page mem }

/-- The writes of `set_task_kstack`; `rsp` is the top of the kernel stack of
`curproc`. -/
def setTaskKstackMem (page : Addr) (rsp : BitVec 64) (mem : Memory) : Memory :=
  let mem := store32 mem (tssAddr page 1) (rsp.setWidth 32)
  store32 mem (tssAddr page 2) ((rsp >>> 32).setWidth 32)

/-! ## The processor's check -/

/-- The task register: the segment that a descriptor describes. -/
structure TaskRegister where
  base : Addr
  limit : Nat

/-- `ltr` with the selector of the task state segment. -/
def ltr (mem : Memory) (gdt : Addr) : TaskRegister :=
  let low := load64 mem (gdtAddr gdt segTss)
  let high := load64 mem (gdtAddr gdt (segTss + 1))
  { base := (low >>> 16 &&& 0xFFFFFF#64) ||| ((low >>> 56) <<< 24) |||
      (high <<< 32)
    limit := (low &&& 0xFFFF#64).toNat + (low >>> 48 &&& 0xF#64).toNat * 2 ^ 16 }

/-- The I/O privilege level in `rflags`. -/
def iopl (rflags : BitVec 64) : Nat :=
  (rflags >>> 12 &&& 3#64).toNat

/-- The I/O map base of a 64-bit task state segment. -/
def ioMapBase (mem : Memory) (tr : TaskRegister) : Nat :=
  (load mem (tr.base + BitVec.ofNat 64 102) 2).toNat

/-- The bit of a port lies within the segment and is 0. -/
def BitClear (mem : Memory) (tr : TaskRegister) (port : Nat) : Prop :=
  let offset := ioMapBase mem tr + port / 8
  offset ≤ tr.limit ∧
    (mem (tr.base + BitVec.ofNat 64 offset)).getLsbD (port % 8) = false

/-- Code of privilege level `cpl` may access the port. -/
def IoAllowed (mem : Memory) (tr : TaskRegister) (rflags : BitVec 64)
    (cpl port : Nat) : Prop :=
  cpl ≤ iopl rflags ∨ BitClear mem tr port

/-! ## The descriptor -/

theorem getLsbD_and_mask (value : BitVec 64) {mask : BitVec 64} {bits : Nat}
    (isMask : mask = BitVec.ofNat 64 (2 ^ bits - 1)) (small : bits ≤ 64)
    (i : Nat) :
    (value &&& mask).getLsbD i = (value.getLsbD i && decide (i < bits)) := by
  rw [isMask, ← BitVec.testBit_toNat, toNat_and_low value bits small,
    Nat.testBit_mod_two_pow, BitVec.testBit_toNat, Bool.and_comm]

theorem getLsbD_small {value : BitVec 64} {bits i : Nat}
    (small : value.toNat < 2 ^ bits) (above : bits ≤ i) :
    value.getLsbD i = false := by
  rw [← BitVec.testBit_toNat]
  exact Nat.testBit_lt_two_pow
    (small.trans_le (Nat.pow_le_pow_right (by decide) above))

section Descriptor

variable (addr : Addr) {i : Nat}

theorem mask24 : 0xFFFFFF#64 = BitVec.ofNat 64 (2 ^ 24 - 1) := by
  decide

theorem mask16 : 0xFFFF#64 = BitVec.ofNat 64 (2 ^ 16 - 1) := by
  decide

theorem mask8 : 0xFF#64 = BitVec.ofNat 64 (2 ^ 8 - 1) := by
  decide

theorem mask4 : 0xF#64 = BitVec.ofNat 64 (2 ^ 4 - 1) := by
  decide

/-- The limit and the type of the segment lie between the parts of its
address. -/
theorem tssDescriptor_getLsbD (bound : i < 64) :
    (tssDescriptor addr).getLsbD i =
      if i < 16 then (0x67#64).getLsbD i
      else if i < 40 then addr.getLsbD (i - 16)
      else if i < 56 then (0xE9#64).getLsbD (i - 40)
      else addr.getLsbD (i - 32) := by
  have limit (above : 16 ≤ i) : (0x67#64).getLsbD i = false :=
    @getLsbD_small _ 16 _ (by decide) above
  have type (above : 56 ≤ i) : (0xE9#64).getLsbD (i - 40) = false :=
    @getLsbD_small _ 16 _ (by decide) (by omega)
  have middle : (addr &&& 0xFFFFFF#64).getLsbD (i - 16) =
      (addr.getLsbD (i - 16) && decide (i - 16 < 24)) :=
    getLsbD_and_mask addr mask24 (by decide) _
  have top : (addr >>> 24 &&& 0xFF#64).getLsbD (i - 56) =
      (addr.getLsbD (24 + (i - 56)) && decide (i - 56 < 8)) := by
    rw [← BitVec.getLsbD_ushiftRight]
    exact getLsbD_and_mask (addr >>> 24) mask8 (by decide) _
  rw [tssDescriptor, BitVec.getLsbD_or, BitVec.getLsbD_or, BitVec.getLsbD_or,
    BitVec.getLsbD_shiftLeft, BitVec.getLsbD_shiftLeft,
    BitVec.getLsbD_shiftLeft, middle, top]
  by_cases low : i < 16
  · have below₁ : i < 40 := by omega
    have below₂ : i < 56 := by omega
    simp [low, below₁, below₂]
  by_cases below₁ : i < 40
  · have below₂ : i < 56 := by omega
    have inside : i - 16 < 24 := by omega
    rw [limit (by omega)]
    simp [low, below₁, below₂, inside, bound]
  by_cases below₂ : i < 56
  · have outside : ¬ i - 16 < 24 := by omega
    rw [limit (by omega)]
    simp [low, below₁, below₂, outside, bound]
  · have outside : ¬ i - 16 < 24 := by omega
    have inside : i - 56 < 8 := by omega
    have place : 24 + (i - 56) = i - 32 := by omega
    rw [limit (by omega), type (by omega)]
    simp [low, below₁, below₂, outside, inside, place, bound]

/-- The processor finds the segment at its address. -/
theorem tssDescriptor_base :
    (tssDescriptor addr >>> 16 &&& 0xFFFFFF#64) |||
        ((tssDescriptor addr >>> 56) <<< 24) |||
        (tssDescriptorHigh addr <<< 32) = addr := by
  apply BitVec.eq_of_getLsbD_eq
  intro i bound
  have low : (tssDescriptor addr >>> 16 &&& 0xFFFFFF#64).getLsbD i =
      ((tssDescriptor addr).getLsbD (16 + i) && decide (i < 24)) := by
    rw [← BitVec.getLsbD_ushiftRight]
    exact getLsbD_and_mask (tssDescriptor addr >>> 16) mask24 (by decide) _
  rw [BitVec.getLsbD_or, BitVec.getLsbD_or, low, BitVec.getLsbD_shiftLeft,
    BitVec.getLsbD_shiftLeft, BitVec.getLsbD_ushiftRight, tssDescriptorHigh,
    BitVec.getLsbD_ushiftRight]
  by_cases first : i < 24
  · have second : i < 32 := by omega
    rw [tssDescriptor_getLsbD addr (by omega), if_neg (by omega),
      if_pos (by omega), Nat.add_sub_cancel_left]
    simp [first, second]
  by_cases second : i < 32
  · have place : 56 + (i - 24) - 32 = i := by omega
    rw [@tssDescriptor_getLsbD addr (56 + (i - 24)) (by omega),
      if_neg (by omega), if_neg (by omega), if_neg (by omega), place]
    simp [first, second, bound]
  · have beyond : (tssDescriptor addr).getLsbD (56 + (i - 24)) = false :=
      BitVec.getLsbD_of_ge _ _ (by omega)
    have place : 32 + (i - 32) = i := by omega
    simp [first, second, bound, beyond, place]

/-- Its limit is 0x67, the last byte of the 104. -/
theorem tssDescriptor_limit :
    (tssDescriptor addr &&& 0xFFFF#64).toNat +
        (tssDescriptor addr >>> 48 &&& 0xF#64).toNat * 2 ^ 16 = 0x67 := by
  have low : tssDescriptor addr &&& 0xFFFF#64 = 0x67#64 := by
    apply BitVec.eq_of_getLsbD_eq
    intro i bound
    rw [getLsbD_and_mask _ mask16 (by decide), tssDescriptor_getLsbD addr bound]
    by_cases inside : i < 16
    · simp [inside]
    · rw [@getLsbD_small 0x67#64 16 i (by decide) (by omega)]
      simp [inside]
  have high : tssDescriptor addr >>> 48 &&& 0xF#64 = 0#64 := by
    apply BitVec.eq_of_getLsbD_eq
    intro i bound
    rw [getLsbD_and_mask _ mask4 (by decide), BitVec.getLsbD_ushiftRight]
    by_cases inside : i < 4
    · rw [tssDescriptor_getLsbD addr (by omega), if_neg (by omega),
        if_neg (by omega), if_pos (by omega),
        @getLsbD_small 0xE9#64 8 _ (by decide) (by omega)]
      simp
    · simp [inside]
  rw [low, high]
  rfl

end Descriptor

/-! ## The page -/

section Page

variable (page : Addr) (mem : Memory) {k : Nat}

/-- The descriptor table lies below the rest of the page. -/
theorem store64_gdt_outside {i : BitVec 64} (value : BitVec 64)
    (entry : i.toNat < 8) (above : 64 ≤ k) (bound : k < 4096) :
    store64 mem (gdtAddr page i) value (page + BitVec.ofNat 64 k) =
      mem (page + BitVec.ofNat 64 k) := by
  have outside := @store_at_offset mem page (8 * i.toNat) 8 k value (by omega)
    (by omega)
  exact outside.trans (if_neg (by omega))

/-- A byte of the task state segment after `trapinit`. -/
theorem setupPage_byte (above : 64 ≤ k) (bound : k < 4096) :
    setupPage page mem (page + BitVec.ofNat 64 k) =
      if 1088 ≤ k ∧ k < 1092 then
        ioMapBaseWord.extractLsb' (8 * (k - 1088)) 8
      else mem (page + BitVec.ofNat 64 k) := by
  have skip {mem : Memory} {i : BitVec 64} (value : BitVec 64)
      (entry : i.toNat < 8) :
      store64 mem (gdtAddr page i) value (page + BitVec.ofNat 64 k) =
        mem (page + BitVec.ofNat 64 k) :=
    store64_gdt_outside page mem value entry above bound
  rw [setupPage, skip _ (by decide), skip _ (by decide), skip _ (by decide),
    skip _ (by decide), skip _ (by decide), skip _ (by decide),
    skip _ (by decide), skip _ (by decide)]
  exact @store_at_offset mem page 1088 4 k ioMapBaseWord (by decide) (by omega)

/-- A bit of the task state segment after `set_task_kstack`: eight of its bytes
hold the address of the stack. -/
theorem setTaskKstackMem_bit (rsp : BitVec 64) {j : Nat} (bit : j < 8)
    (bound : k < 4096) :
    (setTaskKstackMem page rsp mem (page + BitVec.ofNat 64 k)).getLsbD j =
      if 1028 ≤ k ∧ k < 1036 then rsp.getLsbD (8 * (k - 1028) + j)
      else (mem (page + BitVec.ofNat 64 k)).getLsbD j := by
  have first := @store_at_offset mem page 1028 4 k (rsp.setWidth 32)
    (by decide) (by omega)
  have second := @store_at_offset
    (store32 mem (tssAddr page 1) (rsp.setWidth 32)) page 1032 4 k
    ((rsp >>> 32).setWidth 32) (by decide) (by omega)
  have written : setTaskKstackMem page rsp mem (page + BitVec.ofNat 64 k) =
      if 1032 ≤ k ∧ k < 1036 then
        ((rsp >>> 32).setWidth 32).extractLsb' (8 * (k - 1032)) 8
      else if 1028 ≤ k ∧ k < 1032 then
        (rsp.setWidth 32).extractLsb' (8 * (k - 1028)) 8
      else mem (page + BitVec.ofNat 64 k) :=
    second.trans (if_congr Iff.rfl rfl first)
  rw [written]
  by_cases high : 1032 ≤ k ∧ k < 1036
  · have place : 32 + (8 * (k - 1032) + j) = 8 * (k - 1028) + j := by omega
    have inside : 8 * (k - 1032) + j < 32 := by omega
    rw [if_pos high, if_pos (by omega)]
    simp [bit, inside, place]
  by_cases low : 1028 ≤ k ∧ k < 1032
  · have inside : 8 * (k - 1028) + j < 32 := by omega
    rw [if_neg high, if_pos low, if_pos (by omega)]
    simp [bit, inside]
  · rw [if_neg high, if_neg low, if_neg (by omega)]

/-- The processor takes the segment that `trapinit` has described. -/
theorem ltr_setup (rsp : BitVec 64) :
    ltr (setTaskKstackMem page rsp (setupPage page mem)) page =
      { base := tssAddr page 0, limit := 0x67 } := by
  have kstack {mem : Memory} {i : BitVec 64} (entry : i.toNat < 8) :
      load64 (setTaskKstackMem page rsp mem) (gdtAddr page i) =
        load64 mem (gdtAddr page i) := by
    have apart (first : Nat) (above : 64 ≤ first) (below : first ≤ 4096) :
        Apart (gdtAddr page i) 8 (page + BitVec.ofNat 64 first) 4 :=
      apart_of_offsets page (by omega) (by omega)
    rw [setTaskKstackMem]
    refine (load_store_apart _ _ _ 4 8 _ (by decide)
      (apart 1032 (by decide) (by decide))).trans ?_
    exact load_store_apart _ _ _ 4 8 _ (by decide)
      (apart 1028 (by decide) (by decide))
  have apart : Apart (gdtAddr page segTss) 8 (gdtAddr page (segTss + 1)) 8 :=
    apart_of_offsets page (by decide) (by decide)
  have low : load64 (setupPage page mem) (gdtAddr page segTss) =
      tssDescriptor (tssAddr page 0) := by
    rw [setupPage, load64_store64_apart _ _ _ _ apart, load64_store64_same]
  have high : load64 (setupPage page mem) (gdtAddr page (segTss + 1)) =
      tssDescriptorHigh (tssAddr page 0) := by
    rw [setupPage, load64_store64_same]
  rw [ltr, kstack (by decide), kstack (by decide), low, high]
  rw [tssDescriptor_base, tssDescriptor_limit]

end Page

/-! ## Ports -/

/-- The ports that the processor denies to a process whose kernel stack ends at
`rsp`: those whose bit does not lie in the segment, and those whose bit is set by
accident, in the word meant to be the I/O map base or in the stack pointer. -/
def Denied (rsp : BitVec 64) (port : Nat) : Prop :=
  832 ≤ port ∨ port = 531 ∨ port = 533 ∨ port = 534 ∨
    32 ≤ port ∧ port < 96 ∧ rsp.getLsbD (port - 32) = true

theorem trapinit_eq_ok {tls : Addr} {lapic : Registers} {rflags : BitVec 64}
    {smp : Smp} {mem : Memory} {booted : Booted}
    (ran : trapinit tls lapic rflags smp mem = .ok booted) :
    ∃ lapicId, lapicid lapic rflags = .ok lapicId ∧
      findCpu smp (lapicId.setWidth 8) = some booted.curcpu ∧
      booted.tls = tlsLocal tls booted.curcpu ∧
      booted.mem = setupPage booted.tls mem := by
  rw [trapinit, bind_eq_ok] at ran
  rcases ran with ⟨lapicId, found, ran⟩
  cases search : findCpu smp (lapicId.setWidth 8) with
  | none =>
      rw [search] at ran
      cases ran
  | some cpuid =>
      rw [search] at ran
      rcases Except.ok.inj ran with rfl
      exact ⟨lapicId, found, search, rfl, rfl⟩

/-- The bits of the word at 64 that are set. -/
theorem ioMapBaseWord_getLsbD {i : Nat} (bound : i < 32) :
    ioMapBaseWord.getLsbD i = true ↔ i = 19 ∨ i = 21 ∨ i = 22 := by
  have all : ∀ i < 32, (ioMapBaseWord.getLsbD i = true ↔
      i = 19 ∨ i = 21 ∨ i = 22) := by
    decide
  exact all i bound

section Ports

variable {page : Addr} {mem : Memory}
variable (zero : ∀ k < 104, mem (page + BitVec.ofNat 64 (1024 + k)) = 0)
include zero

/-- The bit of the segment that decides about a port. -/
theorem segment_bit (rsp : BitVec 64) {port : Nat} (inside : port < 832) :
    (setTaskKstackMem page rsp (setupPage page mem)
        (tssAddr page 0 + BitVec.ofNat 64 (port / 8))).getLsbD (port % 8) =
      true ↔ Denied rsp port := by
  have place : tssAddr page 0 + BitVec.ofNat 64 (port / 8) =
      page + BitVec.ofNat 64 (1024 + port / 8) := by
    rw [tssAddr, BitVec.add_assoc, ← BitVec.ofNat_add]
  rw [place, setTaskKstackMem_bit page _ rsp (Nat.mod_lt _ (by decide))
    (by omega)]
  by_cases stack : 1028 ≤ 1024 + port / 8 ∧ 1024 + port / 8 < 1036
  · have bit : 8 * (1024 + port / 8 - 1028) + port % 8 = port - 32 := by omega
    rw [if_pos stack, bit, Denied]
    constructor
    · exact fun set => Or.inr (Or.inr (Or.inr (Or.inr ⟨by omega, by omega, set⟩)))
    · rintro (_ | _ | _ | _ | ⟨_, _, set⟩)
      · omega
      · omega
      · omega
      · omega
      · exact set
  have notStack : Denied rsp port ↔
      port = 531 ∨ port = 533 ∨ port = 534 := by
    rw [Denied]
    constructor
    · rintro (_ | _ | _ | _ | ⟨_, _, _⟩) <;> omega
    · rintro (_ | _ | _) <;> omega
  rw [if_neg stack, setupPage_byte page mem (by omega) (by omega), notStack]
  by_cases word : 1088 ≤ 1024 + port / 8 ∧ 1024 + port / 8 < 1092
  · have bit : 8 * (1024 + port / 8 - 1088) + port % 8 = port - 512 := by omega
    have set := @ioMapBaseWord_getLsbD (port - 512) (by omega)
    rw [if_pos word, BitVec.getLsbD_extractLsb', bit]
    have inByte : port % 8 < 8 := Nat.mod_lt _ (by decide)
    simp only [inByte, decide_true, Bool.true_and, set]
    omega
  · rw [if_neg word, zero _ (by omega)]
    constructor
    · exact fun set => absurd set (by simp)
    · omega

/-- The I/O map base that the processor reads is 0. -/
theorem ioMapBase_setup (rsp : BitVec 64) (limit : Nat) :
    ioMapBase (setTaskKstackMem page rsp (setupPage page mem))
      { base := tssAddr page 0, limit } = 0 := by
  have clear : load (setTaskKstackMem page rsp (setupPage page mem))
      (tssAddr page 0 + BitVec.ofNat 64 102) 2 = load (fun _ => 0) 0 2 := by
    apply load_of_bytes
    intro i bound
    have place : tssAddr page 0 + BitVec.ofNat 64 102 + BitVec.ofNat 64 i =
        page + BitVec.ofNat 64 (1024 + (102 + i)) := by
      rw [tssAddr, BitVec.add_assoc, BitVec.add_assoc, ← BitVec.ofNat_add,
        ← BitVec.ofNat_add]
    rw [place]
    apply BitVec.eq_of_getLsbD_eq
    intro j bit
    rw [setTaskKstackMem_bit page _ rsp bit (by omega), if_neg (by omega),
      setupPage_byte page mem (by omega) (by omega), if_neg (by omega),
      zero _ (by omega)]
  rw [ioMapBase, clear]
  rfl

/-- The check of the processor, for a process without I/O privileges. -/
theorem ioAllowed_setup (rsp : BitVec 64) {flags : BitVec 64}
    (level : iopl flags = 0) (port : Nat) :
    IoAllowed (setTaskKstackMem page rsp (setupPage page mem))
        { base := tssAddr page 0, limit := 0x67 } flags 3 port ↔
      ¬ Denied rsp port := by
  rw [IoAllowed, level, BitClear, ioMapBase_setup zero, Nat.zero_add]
  by_cases inside : port < 832
  · have bit := segment_bit zero rsp inside
    have within : port / 8 ≤ 0x67 := by omega
    rw [← bit]
    simp [within]
  · have beyond : ¬ port / 8 ≤ 0x67 := by omega
    have denied : Denied rsp port := Or.inl (by omega)
    simp [beyond, denied]

end Ports

/--
With the task state segment that `trapinit` builds in a page of zeros, and
whatever process's stack `set_task_kstack` has written to it, a user process,
which starts with an I/O privilege level of 0, is denied exactly the ports whose
bit lies beyond the limit or happens to be set.
-/
theorem io_port_denied {tls : Addr} {lapic : Registers} {rflags : BitVec 64}
    {smp : Smp} {mem : Memory} {booted : Booted}
    (ran : trapinit tls lapic rflags smp mem = .ok booted)
    (zero : ∀ k < 104, mem (booted.tls + BitVec.ofNat 64 (1024 + k)) = 0)
    (rsp : BitVec 64) (layout : Layout) (desc : NewProcDesc) (p port : Nat) :
    let mem' := setTaskKstackMem booted.tls rsp booted.mem
    let tr := ltr mem' booted.tls
    tr.base = tssAddr booted.tls 0 ∧ tr.limit = 0x67 ∧
      iopl (spawnuserTf layout desc p .rflags) = 0 ∧
      (¬ IoAllowed mem' tr (spawnuserTf layout desc p .rflags) 3 port ↔
        Denied rsp port) := by
  intro mem' tr
  rcases trapinit_eq_ok ran with ⟨_, _, _, _, isMem⟩
  have isTr : tr = { base := tssAddr booted.tls 0, limit := 0x67 } := by
    show ltr (setTaskKstackMem booted.tls rsp booted.mem) booted.tls = _
    rw [isMem]
    exact ltr_setup booted.tls mem rsp
  have level : iopl (spawnuserTf layout desc p .rflags) = 0 := by
    show (flIf >>> 12 &&& 3#64 : BitVec 64).toNat = 0
    decide
  refine ⟨by rw [isTr], by rw [isTr], level, ?_⟩
  show ¬ IoAllowed (setTaskKstackMem booted.tls rsp booted.mem) tr _ 3 port ↔ _
  rw [isTr, isMem, ioAllowed_setup zero rsp level, Classical.not_not]

/-- The first processor, with a local APIC of number 0. -/
def sampleSmp : Smp :=
  Smp.zero.withCpu 0

abbrev sampleTls : Addr := 0xFFFFFFFF80130000

theorem sample_trapinit :
    trapinit sampleTls (fun _ => 0) 0 sampleSmp (fun _ => 0) =
      .ok { curcpu := 0, tls := sampleTls,
            mem := setupPage sampleTls fun _ => 0 } := by
  rfl

/-- The serial port is denied. -/
theorem io_port_denied_serial :
    ∃ booted, trapinit sampleTls (fun _ => 0) 0 sampleSmp (fun _ => 0) =
        .ok booted ∧
      let mem := setTaskKstackMem booted.tls 0xFFFFFFFF80104000 booted.mem
      ¬ IoAllowed mem (ltr mem booted.tls)
        (spawnuserTf sampleLayout sampleDesc 1 .rflags) 3 0x3F8 := by
  refine ⟨_, sample_trapinit, ?_⟩
  have denied := io_port_denied sample_trapinit (fun _ _ => rfl)
    0xFFFFFFFF80104000 sampleLayout sampleDesc 1 0x3F8
  exact denied.2.2.2.mpr (Or.inl (by decide))

/-- A user process may access the ports of the keyboard controller. -/
theorem io_port_allowed_keyboard :
    ∃ machine booted, Started sampleLayout machine ∧ machine.thread = 1 ∧
      (machine.kernel.slot 1).ptRoot = machine.kernel.image.upml4 ∧
      trapinit sampleTls (fun _ => 0) 0 sampleSmp (fun _ => 0) = .ok booted ∧
      let mem := setTaskKstackMem booted.tls (rsp0 machine.kernel.image)
        booted.mem
      let rflags := spawnuserTf sampleLayout sampleDesc 1 .rflags
      iopl rflags = 0 ∧ (ltr mem booted.tls).limit = 0x67 ∧
        IoAllowed mem (ltr mem booted.tls) rflags 3 0x60 ∧
        IoAllowed mem (ltr mem booted.tls) rflags 3 0x64 := by
  rcases @sample_running (.spawnuser sampleDesc) sampleDesc_prioValid with
    ⟨machine, started, thread, _, _, _, _, ptRoot⟩
  refine ⟨machine, _, started, thread, ptRoot, sample_trapinit, ?_⟩
  dsimp only
  have level : iopl (spawnuserTf sampleLayout sampleDesc 1 .rflags) = 0 := by
    show (flIf >>> 12 &&& 3#64 : BitVec 64).toNat = 0
    decide
  have keyboard (port : Nat) (low : 96 ≤ port) (high : port < 531) :
      ¬ Denied (rsp0 machine.kernel.image) port := by
    rw [Denied]
    omega
  rw [ltr_setup]
  refine ⟨level, rfl, ?_, ?_⟩
  · exact (ioAllowed_setup (fun _ _ => rfl) _ level _).mpr
      (keyboard 0x60 (by decide) (by decide))
  · exact (ioAllowed_setup (fun _ _ => rfl) _ level _).mpr
      (keyboard 0x64 (by decide) (by decide))

/-! ## The entry of a processor -/

/-- With the processors numbered in order, the loop takes the number of the local
APIC for that of the processor. -/
theorem findCpu_eq {smp : Smp} (indexed : Indexed smp)
    (few : smp.ncpu ≤ maxCpu) (lapicId : Byte) :
    findCpu smp lapicId =
      if lapicId.toNat < smp.ncpu then some lapicId.toNat else none := by
  have isIndex (i : Nat) (bound : i < smp.ncpu) :
      (lapicId == (smp.cpus i).index) = true ↔ i = lapicId.toNat := by
    have small : i < 256 := bound.trans_le (few.trans (by decide))
    rw [beq_iff_eq, indexed i bound]
    constructor
    · intro same
      rw [same]
      exact (Nat.mod_eq_of_lt small).symm
    · intro same
      rw [same, BitVec.ofNat_toNat, BitVec.setWidth_eq]
  by_cases inside : lapicId.toNat < smp.ncpu
  · rw [if_pos inside, findCpu, List.find?_range_eq_some]
    refine ⟨(isIndex _ inside).mpr rfl, List.mem_range.mpr inside, ?_⟩
    intro j before
    have other := mt (isIndex j (before.trans inside)).mp before.ne
    rw [Bool.not_eq_true', ← Bool.not_eq_true]
    exact other
  · rw [if_neg inside, findCpu, List.find?_eq_none]
    intro i member
    have bound := List.mem_range.mp member
    rw [isIndex i bound]
    omega

theorem tlsLocal_apart (tls : Addr) {i j : Nat} (iBound : i < maxCpu)
    (jBound : j < maxCpu) (different : i ≠ j) :
    Apart (tlsLocal tls i) 4096 (tlsLocal tls j) 4096 := by
  have count : maxCpu = 8 := rfl
  rcases Nat.lt_or_gt_of_ne different with less | greater
  · exact apart_of_offsets tls (by omega) (by omega)
  · exact (apart_of_offsets tls (by omega) (by omega)).symm

/-- `lapicid` with interrupts off. -/
theorem lapicid_eq_ok_iff {lapic : Registers} {rflags : BitVec 64}
    {lapicId : BitVec 32} :
    lapicid lapic rflags = .ok lapicId ↔
      rflags &&& flIf = 0 ∧ lapic idIndex >>> 24 = lapicId := by
  unfold lapicid
  split
  · rename_i on
    exact ⟨nofun, fun ⟨off, _⟩ => absurd off on⟩
  · rename_i notOn
    have off : rflags &&& flIf = 0 := Classical.not_not.mp notOn
    rw [Except.ok.injEq]
    exact ⟨fun same => ⟨off, same⟩, fun ⟨_, same⟩ => same⟩

/-- The number of a local APIC fits into a byte. -/
theorem toNat_lapicId (lapic : Registers) :
    ((lapic idIndex >>> 24).setWidth 8).toNat =
      (lapic idIndex >>> 24).toNat := by
  have range := (lapic idIndex).isLt
  rw [BitVec.toNat_setWidth, BitVec.toNat_ushiftRight, Nat.shiftRight_eq_div_pow]
  omega

section Identified

variable {smp : Smp} (indexed : Indexed smp) (few : smp.ncpu ≤ maxCpu)
include indexed few

/-- `trapinit` takes the number of the local APIC for an index. -/
theorem trapinit_eq {lapic : Registers} {L : Byte}
    (isId : lapic idIndex >>> 24 = L.setWidth 32) {rflags : BitVec 64}
    (off : rflags &&& flIf = 0) (tls : Addr) (mem : Memory) :
    trapinit tls lapic rflags smp mem =
      if L.toNat < smp.ncpu then
        .ok { curcpu := L.toNat, tls := tlsLocal tls L.toNat,
              mem := setupPage (tlsLocal tls L.toNat) mem }
      else .error (.panic .trapinit "cpuid != -1") := by
  have number : (L.setWidth 32).setWidth 8 = L := by simp
  rw [trapinit, lapicid_eq_ok_iff.mpr ⟨off, isId⟩, ok_bind, number,
    findCpu_eq indexed few]
  by_cases inside : L.toNat < smp.ncpu
  · rw [if_pos inside, if_pos inside]
    rfl
  · rw [if_neg inside, if_neg inside]

/-- The entry that a processor gets is that of its number. -/
theorem curcpu_of_trapinit {tls : Addr} {lapic : Registers}
    {rflags : BitVec 64} {mem : Memory} {booted : Booted}
    (ran : trapinit tls lapic rflags smp mem = .ok booted) :
    booted.curcpu = (lapic idIndex >>> 24).toNat ∧
      booted.curcpu < smp.ncpu ∧ booted.tls = tlsLocal tls booted.curcpu := by
  rcases trapinit_eq_ok ran with ⟨lapicId, isId, found, isTls, _⟩
  rcases lapicid_eq_ok_iff.mp isId with ⟨_, rfl⟩
  rw [findCpu_eq indexed few] at found
  split at found
  · rename_i inside
    rw [toNat_lapicId] at inside found
    have isCpu := Option.some.inj found
    exact ⟨isCpu.symm, isCpu ▸ inside, isTls⟩
  · cases found

end Identified

/--
For every table that `acpi_config_smp` accepts, with at most `MAX_CPU` processors,
and every processor whose local APIC has the number `L`: `trapinit` gets through and
takes the entry with this number exactly if that entry is the one at `L`.  Two
processors with different numbers that get through take different entries and
different pages.
-/
theorem cpu_identified {mem : Memory} {madt : Addr} {fuel : Nat} {smp : Smp}
    (accepted : acpiConfigSmp mem madt fuel Smp.zero = .ok smp)
    (few : smp.ncpu ≤ maxCpu) {L : Byte} {lapic : Registers}
    (isId : lapic idIndex >>> 24 = L.setWidth 32) {rflags : BitVec 64}
    (off : rflags &&& flIf = 0) (tls : Addr) (mem₁ : Memory) :
    ((∃ booted, trapinit tls lapic rflags smp mem₁ = .ok booted ∧
        booted.curcpu < smp.ncpu ∧ (smp.cpus booted.curcpu).lapicid = L) ↔
      L.toNat < smp.ncpu ∧ (smp.cpus L.toNat).lapicid = L) ∧
    ∀ booted, trapinit tls lapic rflags smp mem₁ = .ok booted →
      booted.tls = tlsLocal tls booted.curcpu ∧
      ∀ (lapic' : Registers) rflags' mem₂ booted',
        lapic' idIndex >>> 24 ≠ lapic idIndex >>> 24 →
        trapinit tls lapic' rflags' smp mem₂ = .ok booted' →
          booted'.curcpu ≠ booted.curcpu ∧
          Apart booted.tls 4096 booted'.tls 4096 := by
  have indexed := indexed_of_accepted accepted
  constructor
  · rw [trapinit_eq indexed few isId off]
    constructor
    · rintro ⟨booted, ran, _, isEntry⟩
      split at ran
      · rename_i inside
        rcases Except.ok.inj ran with rfl
        exact ⟨inside, isEntry⟩
      · cases ran
    · rintro ⟨inside, isEntry⟩
      rw [if_pos inside]
      exact ⟨_, rfl, inside, isEntry⟩
  · intro booted ran
    rcases curcpu_of_trapinit indexed few ran with ⟨isCpu, bound, isTls⟩
    refine ⟨isTls, ?_⟩
    intro lapic' rflags' mem₂ booted' other ran'
    rcases curcpu_of_trapinit indexed few ran' with ⟨isCpu', bound', isTls'⟩
    have different : booted'.curcpu ≠ booted.curcpu := by
      intro same
      apply other
      apply BitVec.eq_of_toNat_eq
      rw [← isCpu', ← isCpu, same]
    refine ⟨different, ?_⟩
    rw [isTls, isTls']
    exact tlsLocal_apart tls (bound.trans_le few) (bound'.trans_le few)
      different.symm

/-- A table of enabled local APICs with the given numbers. -/
def lapicTable (ids : List Byte) : Memory :=
  placeBytes sampleMadt
    (madtHeader (BitVec.ofNat 8 (44 + 8 * ids.length)) lapicAddr ++
      ids.flatMap fun id => [0, 8, 0, id, 1, 0, 0, 0])

/-- The registers of a local APIC with a number. -/
def withId (id : Byte) : Registers :=
  fun _ => id.setWidth 32 <<< 24

theorem cpu_identified_only_processor :
    ∃ smp booted,
      acpiConfigSmp (lapicTable [0]) sampleMadt 2 Smp.zero = .ok smp ∧
      trapinit sampleTls (withId 0) 0 smp (fun _ => 0) = .ok booted ∧
      (smp.cpus booted.curcpu).lapicid = 0 := by
  rcases @accepted_of_check (lapicTable [0]) 2
    (fun smp => smp.ncpu == 1 && (smp.cpus 0).lapicid == 0)
    (by decide +kernel) with ⟨smp, accepted, checked⟩
  simp only [Bool.and_eq_true, beq_iff_eq] at checked
  have identified := cpu_identified accepted (by rw [checked.1]; decide)
    (show withId 0 idIndex >>> 24 = (0#8).setWidth 32 by decide)
    (show 0#64 &&& flIf = 0 by decide) sampleTls (fun _ => 0)
  have inPlace : (0#8).toNat < smp.ncpu ∧ (smp.cpus (0#8).toNat).lapicid = 0 := by
    rw [checked.1]
    exact ⟨by decide, checked.2⟩
  rcases identified.1.mpr inPlace with ⟨booted, ran, _, isCpu⟩
  exact ⟨smp, booted, accepted, ran, isCpu⟩

/-- A processor with a number beyond the number of processors fails, and one of
two processors in another order takes the entry of the other one. -/
theorem cpu_misidentified :
    (∃ smp, acpiConfigSmp (lapicTable [5]) sampleMadt 2 Smp.zero = .ok smp ∧
      smp.ncpu = 1 ∧ (smp.cpus 0).lapicid = 5 ∧
      ∀ mem, trapinit sampleTls (withId 5) 0 smp mem =
        .error (.panic .trapinit "cpuid != -1")) ∧
    ∃ smp, acpiConfigSmp (lapicTable [1, 0]) sampleMadt 3 Smp.zero = .ok smp ∧
      smp.ncpu = 2 ∧ (smp.cpus 0).lapicid = 1 ∧ (smp.cpus 1).lapicid = 0 ∧
      ∀ mem, ∃ booted, trapinit sampleTls (withId 0) 0 smp mem = .ok booted ∧
        (smp.cpus booted.curcpu).lapicid = 1 := by
  have isId (id : Byte) (isSmall : id = 0 ∨ id = 5) :
      lapicid (withId id) 0 = .ok (id.setWidth 32) := by
    rcases isSmall with rfl | rfl
    · exact lapicid_eq_ok_iff.mpr (by decide)
    · exact lapicid_eq_ok_iff.mpr (by decide)
  constructor
  · rcases @accepted_of_check (lapicTable [5]) 2
      (fun smp => smp.ncpu == 1 && (smp.cpus 0).lapicid == 5)
      (by decide +kernel) with ⟨smp, accepted, checked⟩
    simp only [Bool.and_eq_true, beq_iff_eq] at checked
    refine ⟨smp, accepted, checked.1, checked.2, ?_⟩
    intro mem
    have absent : findCpu smp (((5 : Byte).setWidth 32).setWidth 8) = none := by
      rw [findCpu_eq (indexed_of_accepted accepted)
        (by rw [checked.1]; decide), checked.1]
      rfl
    rw [trapinit, isId 5 (Or.inr rfl), ok_bind, absent]
  · rcases @accepted_of_check (lapicTable [1, 0]) 3
      (fun smp => smp.ncpu == 2 && (smp.cpus 0).lapicid == 1 &&
        (smp.cpus 1).lapicid == 0)
      (by decide +kernel) with ⟨smp, accepted, checked⟩
    simp only [Bool.and_eq_true, beq_iff_eq] at checked
    refine ⟨smp, accepted, checked.1.1, checked.1.2, checked.2, ?_⟩
    intro mem
    have found : findCpu smp (((0 : Byte).setWidth 32).setWidth 8) = some 0 := by
      rw [findCpu_eq (indexed_of_accepted accepted)
        (by rw [checked.1.1]; decide), checked.1.1]
      rfl
    have ran : trapinit sampleTls (withId 0) 0 smp mem =
        .ok { curcpu := 0, tls := tlsLocal sampleTls 0,
              mem := setupPage (tlsLocal sampleTls 0) mem } := by
      rw [trapinit, isId 0 (Or.inl rfl), ok_bind, found]
      rfl
    exact ⟨_, ran, checked.1.2⟩

end Rt64.Kernel.Trapinit
