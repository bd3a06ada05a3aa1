import Rt64.Lib.ByteMemory

/-!
# Constants, address macros and checks

The numeric parameters of `param.h`, `mem.h` and `x64consts.h`, the macros that
move between physical and virtual addresses, and the kernel's run-time checks.
A failed check ends the run with the function it stands in and the text that
`ASSERT` prints for it.
-/

namespace Rt64.Include.Defs

open Rt64.Lib.ByteMemory

/-! ## Parameters -/

abbrev pgSz4K : BitVec 64 := 0x1000
abbrev pgSz2M : BitVec 64 := 0x200000
/-- Number of entries in a page table. -/
abbrev pgNent : Nat := 512

/-- `MAX_PHYS_MEM`, 16M. -/
abbrev maxPhysMem : BitVec 64 := 0x1000000
abbrev maxProc : Nat := 8
abbrev maxCpu : Nat := 8
abbrev kstackSz : BitVec 64 := 0x1000
abbrev ustackSz : BitVec 64 := 0x1000
/-- Bytes of a machine word. -/
abbrev xlenb : BitVec 64 := 8

abbrev minprio : Int := 0
abbrev maxprio : Int := 255

/-! ## Address space -/

/-- Start of the direct map of physical memory. -/
abbrev kernbase : BitVec 64 := 0xFFFFFFFF80000000
/-- Start of the window on the high devices. -/
abbrev devbase : BitVec 64 := 0xFFFFFFFF40000000

/-- `V2P`: a direct-map address to the physical address behind it. -/
abbrev v2p (address : Addr) : BitVec 64 := address - kernbase

/-- `P2V`: a physical address to its place in the direct map. -/
abbrev p2v (physical : BitVec 64) : Addr := physical + kernbase

/-- `ALIGNED`, for a power of two. -/
def aligned (address size : BitVec 64) : Prop :=
  address &&& (size - 1) = 0

instance (address size : BitVec 64) : Decidable (aligned address size) :=
  inferInstanceAs (Decidable (address &&& (size - 1) = 0))

theorem toNat_and_low (value : BitVec 64) (bits : Nat)
    (small : bits ≤ 64) :
    (value &&& BitVec.ofNat 64 (2 ^ bits - 1)).toNat =
      value.toNat % 2 ^ bits := by
  have range : 2 ^ bits - 1 < 2 ^ 64 := by
    have := Nat.pow_le_pow_right (show 0 < 2 by decide) small
    have := Nat.two_pow_pos bits
    omega
  rw [BitVec.toNat_and, BitVec.toNat_ofNat, Nat.mod_eq_of_lt range,
    Nat.and_two_pow_sub_one_eq_mod]

/-- A page-aligned address is a multiple of the page size. -/
theorem aligned_pgSz4K_iff (address : BitVec 64) :
    aligned address pgSz4K ↔ address.toNat % 4096 = 0 := by
  have low := toNat_and_low address 12 (by decide)
  have mask : (pgSz4K - 1 : BitVec 64) = BitVec.ofNat 64 (2 ^ 12 - 1) := by
    decide
  rw [aligned, mask]
  constructor
  · intro zero
    rw [zero] at low
    simpa using low.symm
  · intro multiple
    apply BitVec.eq_of_toNat_eq
    rw [low]
    simpa using multiple

/-! ## Page-table entries -/

abbrev pfP : BitVec 64 := 1
abbrev pfW : BitVec 64 := 2
abbrev pfU : BitVec 64 := 4
abbrev pfPWT : BitVec 64 := 8
abbrev pfPCD : BitVec 64 := 16
abbrev pfPS : BitVec 64 := 128

/-- `PE_ADDR`: the entry without its low twelve bits. -/
def peAddr (entry : BitVec 64) : BitVec 64 :=
  entry &&& ~~~ 0xFFF#64

/-- `PE_FLAGS`: the low twelve bits of the entry. -/
def peFlags (entry : BitVec 64) : BitVec 64 :=
  entry &&& 0xFFF#64

/-! ## Segments and flags -/

abbrev segKcode : BitVec 64 := 1
abbrev segKdata : BitVec 64 := 2
abbrev segUcode : BitVec 64 := 4
abbrev segUdata : BitVec 64 := 5
abbrev dplUser : BitVec 64 := 3
/-- `FL_IF`, the interrupt flag in `rflags`. -/
abbrev flIf : BitVec 64 := 0x200

/-! ## Checks -/

/-- The functions whose checks can end a run. -/
inductive Site where
  | kfree
  | kalloc
  | safeSetent
  | safeNextptMayalloc
  | safeNextptNoalloc
  | pagingMap4K
  | pagingMap
  | ptDeepcopyLevel
  | uvminit
  | allocproc
  | spawn
  | spawnuser
  | sched
  | yield
  | sleep
  | exit
  | idlemain
  | setTaskKstack
  | trap
  | lapicid
  | acpiConfigSmp
  | acpiinit
  | trapinit
  | printint
  | vcprintf
deriving DecidableEq, Repr

/--
Why a computation has no result: a panic, a loop that was still running when its
fuel was used up, or a store to an array that is too short.  What such a store
changes is up to the linker, so the run is not followed past it.
-/
inductive Halt where
  | panic (site : Site) (text : String)
  | fuel
  | bounds (site : Site) (index : Nat)
deriving DecidableEq, Repr

/-- `ASSERT`, with the text it prints. -/
def assert (site : Site) (text : String)
    (condition : Prop) [Decidable condition] : Except Halt Unit :=
  if condition then .ok () else .error (.panic site text)

@[simp]
theorem assert_of_holds (site : Site) (text : String)
    {condition : Prop} [Decidable condition] (holds : condition) :
    assert site text condition = .ok () := by
  simp [assert, holds]

theorem assert_eq_ok (site : Site) (text : String)
    {condition : Prop} [Decidable condition] {result : Unit}
    (passed : assert site text condition = .ok result) :
    condition := by
  by_contra fails
  simp [assert, fails] at passed

@[simp]
theorem ok_bind {α β : Type} (value : α) (next : α → Except Halt β) :
    (Except.ok value >>= next) = next value :=
  rfl

/-- A sequence succeeds exactly when both of its parts do. -/
theorem bind_eq_ok {α β : Type} (first : Except Halt α)
    (next : α → Except Halt β) (result : β) :
    (first >>= next) = .ok result ↔
      ∃ value, first = .ok value ∧ next value = .ok result := by
  cases first with
  | error halt =>
      constructor
      · intro impossible
        cases impossible
      · rintro ⟨value, impossible, _⟩
        cases impossible
  | ok value => simp

theorem assert_bind_eq_ok {β : Type} (site : Site) (text : String)
    (condition : Prop) [Decidable condition]
    (next : Unit → Except Halt β) (result : β) :
    (assert site text condition >>= next) = .ok result ↔
      condition ∧ next () = .ok result := by
  rw [bind_eq_ok]
  constructor
  · rintro ⟨_, passed, rest⟩
    exact ⟨assert_eq_ok site text passed, rest⟩
  · rintro ⟨holds, rest⟩
    exact ⟨(), assert_of_holds site text holds, rest⟩

end Rt64.Include.Defs
