import Mathlib.Data.BitVec
import Mathlib.Tactic.Common

/-!
# Byte-addressed memory

A memory is a total function from 64-bit addresses to bytes.  Regions are
written as a base and a size, and membership is decided by the distance from
the base modulo the address space, so a region may cross address zero and no
lemma below needs a side condition that excludes it.

Words are stored little-endian.  Besides the laws for reading back a stored
word, the module has the two bulk updates `fill` and `copy`, which state what a
loop over a region achieves once it has run to its end.
-/

namespace Rt64.Lib.ByteMemory

/-- A 64-bit address. -/
abbrev Addr := BitVec 64

abbrev Byte := BitVec 8

abbrev Memory := Addr → Byte

/-! ## Regions -/

/-- The address lies in the `size` bytes that start at `base`. -/
def Within (base : Addr) (size : Nat) (address : Addr) : Prop :=
  (address - base).toNat < size

instance (base : Addr) (size : Nat) (address : Addr) :
    Decidable (Within base size address) :=
  inferInstanceAs (Decidable ((address - base).toNat < size))

/-- Two regions have no byte in common. -/
def Apart (left : Addr) (leftSize : Nat)
    (right : Addr) (rightSize : Nat) : Prop :=
  ∀ address, Within left leftSize address → ¬ Within right rightSize address

theorem Apart.symm {left right : Addr} {leftSize rightSize : Nat}
    (apart : Apart left leftSize right rightSize) :
    Apart right rightSize left leftSize := by
  intro address inRight inLeft
  exact apart address inLeft inRight

theorem Apart.mono {left right left' right' : Addr}
    {leftSize rightSize leftSize' rightSize' : Nat}
    (apart : Apart left leftSize right rightSize)
    (leftInside : ∀ address,
      Within left' leftSize' address → Within left leftSize address)
    (rightInside : ∀ address,
      Within right' rightSize' address → Within right rightSize address) :
    Apart left' leftSize' right' rightSize' := by
  intro address inLeft inRight
  exact apart address (leftInside address inLeft)
    (rightInside address inRight)

theorem within_offset (base : Addr) {size offset : Nat}
    (bound : offset < size) (small : size ≤ 2 ^ 64) :
    Within base size (base + BitVec.ofNat 64 offset) := by
  have distance :
      (base + BitVec.ofNat 64 offset - base).toNat = offset := by
    bv_omega
  rw [Within, distance]
  exact bound

/-- Every address of a region is an offset from its base. -/
theorem Within.exists_offset {base address : Addr} {size : Nat}
    (inside : Within base size address) :
    ∃ offset, offset < size ∧ address = base + BitVec.ofNat 64 offset := by
  refine ⟨(address - base).toNat, inside, ?_⟩
  bv_omega

/-- A region is the union of its first bytes and the rest. -/
theorem within_add_iff (base address : Addr) (first second : Nat)
    (small : first + second < 2 ^ 64) :
    Within base (first + second) address ↔
      Within base first address ∨
        Within (base + BitVec.ofNat 64 first) second address := by
  have distance :
      (address - (base + BitVec.ofNat 64 first)).toNat =
        ((address - base).toNat + (2 ^ 64 - first)) % 2 ^ 64 := by
    bv_omega
  have bound := (address - base).isLt
  simp only [Within, distance]
  omega

/-- A region that does not run over the end of the address space. -/
theorem within_iff_between {base : Addr} {size : Nat}
    (fits : base.toNat + size ≤ 2 ^ 64) (address : Addr) :
    Within base size address ↔
      base.toNat ≤ address.toNat ∧ address.toNat < base.toNat + size := by
  simp only [Within]
  bv_omega

/-- A part of a region lies inside it. -/
theorem Within.of_offset {base address : Addr} {offset size total : Nat}
    (inside : Within (base + BitVec.ofNat 64 offset) size address)
    (fits : offset + size ≤ total) (small : offset + size < 2 ^ 64) :
    Within base total address := by
  have part : Within base (offset + size) address :=
    (within_add_iff base address offset size small).mpr (Or.inr inside)
  exact lt_of_lt_of_le part fits

/-- Parts of a region that do not overlap. -/
theorem apart_of_offsets (base : Addr) {first second size size' : Nat}
    (ordered : first + size ≤ second) (small : second + size' ≤ 2 ^ 64) :
    Apart (base + BitVec.ofNat 64 first) size
      (base + BitVec.ofNat 64 second) size' := by
  intro address inFirst inSecond
  rcases inFirst.exists_offset with ⟨offset, bound, rfl⟩
  rcases inSecond.exists_offset with ⟨offset', bound', same⟩
  have place : (BitVec.ofNat 64 first + BitVec.ofNat 64 offset).toNat =
      (BitVec.ofNat 64 second + BitVec.ofNat 64 offset').toNat := by
    rw [BitVec.add_assoc, BitVec.add_assoc, add_right_inj] at same
    rw [same]
  simp only [BitVec.toNat_add, BitVec.toNat_ofNat] at place
  omega

/-! ## Little-endian words -/

/-- Read `size` bytes, the byte at the lowest address least significant. -/
def load (memory : Memory) (address : Addr) :
    (size : Nat) → BitVec (8 * size)
  | 0 => 0#0
  | size + 1 => load memory (address + 1) size ++ memory address

/-- Write the `size` bytes of a value, least significant byte first. -/
def store (memory : Memory) (address : Addr) (size : Nat)
    (value : BitVec (8 * size)) : Memory :=
  fun target =>
    if Within address size target then
      value.extractLsb' (8 * (target - address).toNat) 8
    else
      memory target

theorem store_inside (memory : Memory) (address target : Addr)
    (size : Nat) (value : BitVec (8 * size))
    (inside : Within address size target) :
    store memory address size value target =
      value.extractLsb' (8 * (target - address).toNat) 8 := by
  simp [store, inside]

theorem store_outside (memory : Memory) (address target : Addr)
    (size : Nat) (value : BitVec (8 * size))
    (outside : ¬ Within address size target) :
    store memory address size value target = memory target := by
  simp [store, outside]

/-- A store and a byte at offsets from the same base. -/
theorem store_at_offset (memory : Memory) (base : Addr) {first size k : Nat}
    (value : BitVec (8 * size)) (small : first + size ≤ 2 ^ 63)
    (bound : k < 2 ^ 63) :
    store memory (base + BitVec.ofNat 64 first) size value
        (base + BitVec.ofNat 64 k) =
      if first ≤ k ∧ k < first + size then
        value.extractLsb' (8 * (k - first)) 8
      else memory (base + BitVec.ofNat 64 k) := by
  by_cases inside : first ≤ k ∧ k < first + size
  · have distance : (base + BitVec.ofNat 64 k -
        (base + BitVec.ofNat 64 first)).toNat = k - first := by
      bv_omega
    rw [if_pos inside, store_inside _ _ _ _ _ (by rw [Within]; omega), distance]
  · rw [if_neg inside]
    refine store_outside _ _ _ _ _ ?_
    rw [Within]
    bv_omega

/-- Each bit of a loaded word is a bit of one of its bytes. -/
theorem getLsbD_load (memory : Memory) (address : Addr)
    (size bit : Nat) (bound : bit < 8 * size) :
    (load memory address size).getLsbD bit =
      (memory (address + BitVec.ofNat 64 (bit / 8))).getLsbD (bit % 8) := by
  induction size generalizing address bit with
  | zero => omega
  | succ size induction =>
      rw [load, BitVec.getLsbD_append]
      split
      · rename_i low
        have quotient : bit / 8 = 0 := by omega
        have remainder : bit % 8 = bit := by omega
        simp [quotient, remainder]
      · rename_i high
        have next : address + 1 + BitVec.ofNat 64 ((bit - 8) / 8) =
            address + BitVec.ofNat 64 (bit / 8) := by
          have quotient : bit / 8 = (bit - 8) / 8 + 1 := by omega
          rw [quotient]
          bv_omega
        have remainder : (bit - 8) % 8 = bit % 8 := by omega
        rw [induction (address + 1) (bit - 8) (by omega), next, remainder]

/-- A load depends only on the bytes of its region. -/
theorem load_congr {left right : Memory} (address : Addr) (size : Nat)
    (small : size ≤ 2 ^ 64)
    (agree : ∀ target, Within address size target →
      left target = right target) :
    load left address size = load right address size := by
  apply BitVec.eq_of_getLsbD_eq
  intro bit bound
  rw [getLsbD_load left address size bit bound,
    getLsbD_load right address size bit bound,
    agree _ (within_offset address (by omega) small)]

@[simp]
theorem load_store_same (memory : Memory) (address : Addr) (size : Nat)
    (value : BitVec (8 * size)) (small : size ≤ 2 ^ 64) :
    load (store memory address size value) address size = value := by
  apply BitVec.eq_of_getLsbD_eq
  intro bit bound
  have offsetBound : bit / 8 < size := by omega
  have distance :
      (address + BitVec.ofNat 64 (bit / 8) - address).toNat = bit / 8 := by
    bv_omega
  have rejoin : 8 * (bit / 8) + bit % 8 = bit := by omega
  have remainderBound : bit % 8 < 8 := by omega
  rw [getLsbD_load _ address size bit bound,
    store_inside _ _ _ _ _ (within_offset address offsetBound small),
    distance]
  simp [rejoin, remainderBound]

theorem load_store_apart (memory : Memory)
    (address target : Addr) (size targetSize : Nat)
    (value : BitVec (8 * size)) (small : targetSize ≤ 2 ^ 64)
    (apart : Apart target targetSize address size) :
    load (store memory address size value) target targetSize =
      load memory target targetSize := by
  apply load_congr target targetSize small
  intro place inside
  exact store_outside _ _ _ _ _ (apart place inside)

/-- Equal words have equal bytes. -/
theorem byte_eq_of_load_eq {left right : Memory} (address target : Addr)
    (size : Nat)
    (equal : load left address size = load right address size)
    (inside : Within address size target) :
    left target = right target := by
  obtain ⟨offset, offsetBound, rfl⟩ := inside.exists_offset
  apply BitVec.eq_of_getLsbD_eq
  intro bit bound
  have whole : 8 * offset + bit < 8 * size := by omega
  have quotient : (8 * offset + bit) / 8 = offset := by omega
  have remainder : (8 * offset + bit) % 8 = bit := by omega
  have leftBit := getLsbD_load left address size _ whole
  have rightBit := getLsbD_load right address size _ whole
  rw [quotient, remainder] at leftBit rightBit
  rw [← leftBit, ← rightBit, equal]

/-- A load is determined by the bytes from its address on. -/
theorem load_of_bytes {left right : Memory} {address address' : Addr}
    (size : Nat)
    (agree : ∀ i < size, left (address + BitVec.ofNat 64 i) =
      right (address' + BitVec.ofNat 64 i)) :
    load left address size = load right address' size := by
  induction size generalizing address address' with
  | zero => rfl
  | succ size induction =>
      have first := agree 0 (Nat.succ_pos size)
      rw [BitVec.add_zero, BitVec.add_zero] at first
      have next (base : Addr) (i : Nat) : base + 1 + BitVec.ofNat 64 i =
          base + BitVec.ofNat 64 (i + 1) := by
        bv_omega
      have rest : load left (address + 1) size =
          load right (address' + 1) size := by
        apply induction
        intro i bound
        rw [next, next]
        exact agree (i + 1) (Nat.succ_lt_succ bound)
      rw [load, load, first, rest]

/-! ## Machine words -/

/-- A 32-bit little-endian load. -/
def load32 (memory : Memory) (address : Addr) : BitVec 32 :=
  load memory address 4

/-- A 32-bit little-endian store. -/
def store32 (memory : Memory) (address : Addr) (value : BitVec 32) : Memory :=
  store memory address 4 value

/-- A 64-bit little-endian load. -/
def load64 (memory : Memory) (address : Addr) : BitVec 64 :=
  load memory address 8

/-- A 64-bit little-endian store. -/
def store64 (memory : Memory) (address : Addr) (value : BitVec 64) : Memory :=
  store memory address 8 value

theorem store64_outside (memory : Memory) (address target : Addr)
    (value : BitVec 64) (outside : ¬ Within address 8 target) :
    store64 memory address value target = memory target :=
  store_outside memory address target 8 value outside

/-- A byte after a store depends on the same byte before it. -/
theorem store64_congr {left right : Memory} {target : Addr} (address : Addr)
    (value : BitVec 64) (agree : left target = right target) :
    store64 left address value target = store64 right address value target := by
  unfold store64 store
  rw [agree]

theorem load64_congr {left right : Memory} (address : Addr)
    (agree : ∀ target, Within address 8 target →
      left target = right target) :
    load64 left address = load64 right address :=
  load_congr address 8 (by decide) agree

@[simp]
theorem load64_store64_same (memory : Memory) (address : Addr)
    (value : BitVec 64) :
    load64 (store64 memory address value) address = value :=
  load_store_same memory address 8 value (by decide)

theorem load64_store64_apart (memory : Memory) (address target : Addr)
    (value : BitVec 64) (apart : Apart target 8 address 8) :
    load64 (store64 memory address value) target = load64 memory target :=
  load_store_apart memory address target 8 8 value (by decide) apart

/-- Writing back the word that is already there changes nothing. -/
theorem store64_load64 (memory : Memory) (address : Addr) :
    store64 memory address (load64 memory address) = memory := by
  funext target
  by_cases inside : Within address 8 target
  · exact byte_eq_of_load_eq address target 8
      (load64_store64_same memory address (load64 memory address)) inside
  · exact store64_outside _ _ _ _ inside

/-- A word all of whose bytes are zero is zero. -/
theorem load64_eq_zero (memory : Memory) (address : Addr)
    (zero : ∀ target, Within address 8 target → memory target = 0) :
    load64 memory address = 0 := by
  apply BitVec.eq_of_getLsbD_eq
  intro bit bound
  have inside : Within address 8 (address + BitVec.ofNat 64 (bit / 8)) :=
    within_offset address (by omega) (by decide)
  rw [load64, getLsbD_load memory address 8 bit bound, zero _ inside]
  simp

/-! ## Bulk updates -/

/-- Every byte of the region set to one value. -/
def fill (memory : Memory) (base : Addr) (size : Nat) (value : Byte) :
    Memory :=
  fun target => if Within base size target then value else memory target

/-- The region overwritten by the bytes that stood at `source`. -/
def copy (memory : Memory) (base source : Addr) (size : Nat) : Memory :=
  fun target =>
    if Within base size target then memory (source + (target - base))
    else memory target

@[simp]
theorem fill_zero (memory : Memory) (base : Addr) (value : Byte) :
    fill memory base 0 value = memory := by
  funext target
  simp [fill, Within]

@[simp]
theorem copy_zero (memory : Memory) (base source : Addr) :
    copy memory base source 0 = memory := by
  funext target
  simp [copy, Within]

theorem fill_inside (memory : Memory) (base target : Addr) (size : Nat)
    (value : Byte) (inside : Within base size target) :
    fill memory base size value target = value := by
  simp [fill, inside]

theorem fill_outside (memory : Memory) (base target : Addr) (size : Nat)
    (value : Byte) (outside : ¬ Within base size target) :
    fill memory base size value target = memory target := by
  simp [fill, outside]

/-- Filling a region in two pieces. -/
theorem fill_fill (memory : Memory) (base : Addr) (value : Byte)
    (first second : Nat) (small : first + second < 2 ^ 64) :
    fill (fill memory base first value)
        (base + BitVec.ofNat 64 first) second value =
      fill memory base (first + second) value := by
  funext target
  simp only [fill, within_add_iff base target first second small]
  by_cases inFirst : Within base first target <;>
    by_cases inSecond : Within (base + BitVec.ofNat 64 first) second target <;>
    simp [inFirst, inSecond]

theorem copy_offset (memory : Memory) (base source : Addr)
    {size offset : Nat} (bound : offset < size) (small : size ≤ 2 ^ 64) :
    copy memory base source size (base + BitVec.ofNat 64 offset) =
      memory (source + BitVec.ofNat 64 offset) := by
  have shifted : base + BitVec.ofNat 64 offset - base =
      BitVec.ofNat 64 offset := add_sub_cancel_left base _
  rw [copy, if_pos (within_offset base bound small), shifted]

theorem copy_outside (memory : Memory) (base source target : Addr)
    (size : Nat) (outside : ¬ Within base size target) :
    copy memory base source size target = memory target := by
  simp [copy, outside]

/-- A word inside a copied region is the word at the source. -/
theorem load64_copy (memory : Memory) (base source : Addr)
    (size offset : Nat) (bound : offset + 8 ≤ size) (small : size ≤ 2 ^ 64) :
    load64 (copy memory base source size) (base + BitVec.ofNat 64 offset) =
      load64 memory (source + BitVec.ofNat 64 offset) := by
  apply BitVec.eq_of_getLsbD_eq
  intro bit bitBound
  have inside : Within base size
      (base + BitVec.ofNat 64 offset + BitVec.ofNat 64 (bit / 8)) := by
    have moved : base + BitVec.ofNat 64 offset + BitVec.ofNat 64 (bit / 8) =
        base + BitVec.ofNat 64 (offset + bit / 8) := by
      bv_omega
    rw [moved]
    exact within_offset base (by omega) small
  have shifted :
      source + (base + BitVec.ofNat 64 offset + BitVec.ofNat 64 (bit / 8) -
          base) =
        source + BitVec.ofNat 64 offset + BitVec.ofNat 64 (bit / 8) := by
    bv_omega
  rw [load64, load64, getLsbD_load _ _ 8 bit bitBound,
    getLsbD_load _ _ 8 bit bitBound, copy, if_pos inside, shifted]

end Rt64.Lib.ByteMemory
