import Rt64.Include.Defs
import Mathlib.Logic.Function.Basic
import Mathlib.Tactic.IntervalCases

/-!
# The kernel's memory and string routines

`string.c` as loops over a byte memory.  `memset` has the two paths of the
source, one store of four bytes per round and one of a single byte, and
`memmove` its two directions.  Each is shown to be the bulk update of the
memory library, which is all that its callers use.
-/

namespace Rt64.Klib.String

open Rt64.Lib.ByteMemory

/-! ## memset -/

/-- `rep stosb`: the byte `data`, `count` times upwards. -/
def stosb (memory : Memory) (address : Addr) (data : Byte) :
    Nat → Memory
  | 0 => memory
  | count + 1 =>
      stosb (Function.update memory address data) (address + 1#64) data count

/-- `rep stosl`: the four bytes of `data`, `count` times upwards. -/
def stosl (memory : Memory) (address : Addr) (data : BitVec 32) :
    Nat → Memory
  | 0 => memory
  | count + 1 =>
      stosl (store memory address 4 data) (address + 4) data count

/-- `memset`.  The counts pass through an `int` parameter of 32 bits. -/
def memset (memory : Memory) (dst : Addr) (c : BitVec 32)
    (n : BitVec 64) : Memory :=
  if dst % 4 = 0 ∧ n % 4 = 0 then
    let c := c &&& 0xFF
    stosl memory dst ((c <<< 24) ||| (c <<< 16) ||| (c <<< 8) ||| c)
      ((n / 4).setWidth 32).toNat
  else
    stosb memory dst (c.setWidth 8) (n.setWidth 32).toNat

theorem update_eq_fill (memory : Memory) (address : Addr) (data : Byte) :
    Function.update memory address data = fill memory address 1 data := by
  funext target
  by_cases same : target = address
  · subst same
    simp [fill, Within]
  · have outside : ¬ Within address 1 target := by
      intro inside
      apply same
      simp only [Within] at inside
      bv_omega
    rw [Function.update_of_ne same, fill_outside _ _ _ _ _ outside]

theorem stosb_eq_fill (memory : Memory) (address : Addr) (data : Byte)
    (count : Nat) (small : count < 2 ^ 64) :
    stosb memory address data count = fill memory address count data := by
  induction count generalizing memory address with
  | zero => simp [stosb]
  | succ count induction =>
      rw [stosb, induction _ _ (by omega), update_eq_fill]
      have pieces := fill_fill memory address data 1 count (by omega)
      rw [Nat.add_comm] at pieces
      exact pieces

/-- A store of four equal bytes is a fill. -/
theorem store_pattern_eq_fill (memory : Memory) (address : Addr)
    (c : BitVec 32) :
    store memory address 4
        (((c &&& 0xFF) <<< 24) ||| ((c &&& 0xFF) <<< 16) |||
          ((c &&& 0xFF) <<< 8) ||| (c &&& 0xFF)) =
      fill memory address 4 (c.setWidth 8) := by
  funext target
  by_cases inside : Within address 4 target
  · rw [store_inside _ _ _ _ _ inside, fill_inside _ _ _ _ _ inside]
    simp only [Within] at inside
    generalize (target - address).toNat = offset at inside
    apply BitVec.eq_of_getLsbD_eq
    intro bit bound
    have cases : offset = 0 ∨ offset = 1 ∨ offset = 2 ∨ offset = 3 := by
      omega
    rcases cases with rfl | rfl | rfl | rfl <;>
      interval_cases bit <;> simp
  · rw [store_outside _ _ _ _ _ inside, fill_outside _ _ _ _ _ inside]

theorem stosl_eq_fill (memory : Memory) (address : Addr)
    (c : BitVec 32) (count : Nat) (small : 4 * count < 2 ^ 64) :
    stosl memory address
        (((c &&& 0xFF) <<< 24) ||| ((c &&& 0xFF) <<< 16) |||
          ((c &&& 0xFF) <<< 8) ||| (c &&& 0xFF)) count =
      fill memory address (4 * count) (c.setWidth 8) := by
  induction count generalizing memory address with
  | zero => simp [stosl]
  | succ count induction =>
      rw [stosl, induction _ _ (by omega), store_pattern_eq_fill]
      have pieces :=
        fill_fill memory address (c.setWidth 8) 4 (4 * count) (by omega)
      rw [show 4 * (count + 1) = 4 + 4 * count by omega]
      exact pieces

/-- Both paths of `memset` set exactly the bytes of the region. -/
theorem memset_eq_fill (memory : Memory) (dst : Addr) (c : BitVec 32)
    (n : BitVec 64) (small : n.toNat < 2 ^ 31) :
    memset memory dst c n = fill memory dst n.toNat (c.setWidth 8) := by
  unfold memset
  split
  · rename_i words
    have count : ((n / 4).setWidth 32).toNat = n.toNat / 4 := by
      rw [BitVec.toNat_setWidth, BitVec.toNat_udiv]
      simp only [BitVec.reduceToNat]
      omega
    have whole : 4 * (n.toNat / 4) = n.toNat := by
      have remainder := congrArg BitVec.toNat words.2
      rw [BitVec.toNat_umod] at remainder
      simp only [BitVec.reduceToNat] at remainder
      omega
    rw [count, stosl_eq_fill _ _ _ _ (by omega), whole]
  · have count : (n.setWidth 32).toNat = n.toNat := by
      bv_omega
    rw [count, stosb_eq_fill _ _ _ _ (by omega)]

/-- The word of four equal bytes that the fast path of `memset` stores. -/
def pattern (c : BitVec 32) : BitVec 32 :=
  let c := c &&& 0xFF
  (c <<< 24) ||| (c <<< 16) ||| (c <<< 8) ||| c

/--
For every memory, target, `int` and size below `2 ^ 31` whose region does not run
over the end of the address space, `memset` sets the bytes of the region to the
`int` modulo 256 and changes no other byte, and wherever the size allows the
stores of four bytes, they come to the same as those of single bytes.
-/
theorem memset_sets_region (memory : Memory) (dst : Addr) (c : BitVec 32)
    (n : BitVec 64) (small : n.toNat < 2 ^ 31)
    (fits : dst.toNat + n.toNat ≤ 2 ^ 64) :
    (∀ address, dst.toNat ≤ address.toNat →
        address.toNat < dst.toNat + n.toNat →
        ((memset memory dst c n address).toNat : Int) = c.toInt % 256) ∧
      (∀ address,
        address.toNat < dst.toNat ∨ dst.toNat + n.toNat ≤ address.toNat →
        memset memory dst c n address = memory address) ∧
      (n.toNat % 4 = 0 →
        stosl memory dst (pattern c) (n.toNat / 4) =
          stosb memory dst (c.setWidth 8) n.toNat) := by
  have between := within_iff_between fits
  refine ⟨?_, ?_, ?_⟩
  · intro address low high
    have inside := (between address).mpr ⟨low, high⟩
    have value := c.isLt
    rw [memset_eq_fill _ _ _ _ small, fill_inside _ _ _ _ _ inside,
      BitVec.toNat_setWidth, BitVec.toInt_eq_toNat_cond]
    split <;> omega
  · intro address beyond
    have outside : ¬ Within dst n.toNat address := by
      rw [between address]
      omega
    rw [memset_eq_fill _ _ _ _ small, fill_outside _ _ _ _ _ outside]
  · intro whole
    have size : 4 * (n.toNat / 4) = n.toNat := by omega
    have words := stosl_eq_fill memory dst c (n.toNat / 4) (by omega)
    rw [size] at words
    rw [stosb_eq_fill _ _ _ _ (by omega)]
    exact words

/-- Eight bytes set to a negative number, up to the end of the address space. -/
theorem memset_sets_region_last_word :
    ∃ memory : Memory,
      ((memset memory (-8) (-2) 8 (-1)).toNat : Int) = 254 ∧
        memset memory (-8) (-2) 8 0 = memory 0 := by
  have sets := memset_sets_region (fun _ => 0) (-8) (-2) 8 (by decide)
    (by decide)
  exact ⟨fun _ => 0, sets.1 (-1) (by decide) (by decide),
    sets.2.1 0 (Or.inl (by decide))⟩

/-! ## memmove -/

/-- The ascending loop `*d++ = *s++`. -/
def memmoveUp (memory : Memory) (d s : Addr) : Nat → Memory
  | 0 => memory
  | n + 1 =>
      memmoveUp (Function.update memory d (memory s)) (d + 1#64) (s + 1#64) n

/-- The descending loop `*--d = *--s`. -/
def memmoveDown (memory : Memory) (d s : Addr) : Nat → Memory
  | 0 => memory
  | n + 1 =>
      memmoveDown (Function.update memory (d - 1#64) (memory (s - 1#64)))
        (d - 1#64) (s - 1#64) n

/-- `memmove`: descending exactly when the source runs into the target. -/
def memmove (memory : Memory) (dst src : Addr) (n : BitVec 64) : Memory :=
  if src < dst ∧ dst < src + n then
    memmoveDown memory (dst + n) (src + n) n.toNat
  else
    memmoveUp memory dst src n.toNat

def memcpy (memory : Memory) (dst src : Addr) (n : BitVec 64) : Memory :=
  memmove memory dst src n

/-- One ascending round, then the rest of the copy. -/
theorem copy_update_up (memory : Memory) (d s : Addr) (n : Nat)
    (small : n + 1 < 2 ^ 64)
    (ahead : d = s ∨ n + 1 ≤ (d - s).toNat) :
    copy (Function.update memory d (memory s)) (d + 1#64) (s + 1#64) n =
      copy memory d s (n + 1) := by
  funext target
  have whole := within_add_iff d target 1 n (by omega)
  rw [Nat.add_comm] at whole
  have first : Within d 1 target ↔ target = d := by
    simp only [Within]
    bv_omega
  simp only [copy, whole, first]
  have moved : s + 1#64 + (target - (d + 1#64)) = s + (target - d) := by
    bv_omega
  by_cases inRest : Within (d + 1#64) n target
  · have unchanged :
        Function.update memory d (memory s) (s + (target - d)) =
          memory (s + (target - d)) := by
      rcases ahead with rfl | far
      · simp
      · apply Function.update_of_ne
        simp only [Within] at inRest
        bv_omega
    simp [inRest, moved, unchanged]
  · by_cases atFirst : target = d
    · subst atFirst
      simp [inRest]
    · simp [inRest, atFirst]

/-- Ascending is right when the target does not start inside the source. -/
theorem memmoveUp_eq_copy (memory : Memory) (d s : Addr) (n : Nat)
    (small : n < 2 ^ 64) (ahead : d = s ∨ n ≤ (d - s).toNat) :
    memmoveUp memory d s n = copy memory d s n := by
  induction n generalizing memory d s with
  | zero => simp [memmoveUp]
  | succ n induction =>
      have sameShift : d + 1#64 - (s + 1#64) = d - s := by
        bv_omega
      have aheadNext : d + 1#64 = s + 1#64 ∨ n ≤ (d + 1#64 - (s + 1#64)).toNat := by
        rcases ahead with rfl | far
        · exact Or.inl rfl
        · rw [sameShift]
          exact Or.inr (by omega)
      rw [memmoveUp, induction _ _ _ (by omega) aheadNext]
      exact copy_update_up memory d s n small ahead

/-- One descending round, then the rest of the copy below it. -/
theorem copy_update_down (memory : Memory) (d s : Addr) (n : Nat)
    (small : n + 1 < 2 ^ 64)
    (behind : n + 1 ≤ (s - d).toNat) :
    copy (Function.update memory (d + BitVec.ofNat 64 n)
        (memory (s + BitVec.ofNat 64 n))) d s n =
      copy memory d s (n + 1) := by
  funext target
  have whole := within_add_iff d target n 1 (by omega)
  have last : Within (d + BitVec.ofNat 64 n) 1 target ↔
      target = d + BitVec.ofNat 64 n := by
    simp only [Within]
    bv_omega
  simp only [copy, whole, last]
  by_cases inRest : Within d n target
  · have unchanged :
        Function.update memory (d + BitVec.ofNat 64 n)
            (memory (s + BitVec.ofNat 64 n)) (s + (target - d)) =
          memory (s + (target - d)) := by
      apply Function.update_of_ne
      simp only [Within] at inRest
      bv_omega
    simp [inRest, unchanged]
  · by_cases atLast : target = d + BitVec.ofNat 64 n
    · subst atLast
      have shifted : d + BitVec.ofNat 64 n - d = BitVec.ofNat 64 n :=
        add_sub_cancel_left d (BitVec.ofNat 64 n)
      simp [inRest, shifted]
    · simp [inRest, atLast]

/-- Descending is right when the source does not start inside the target. -/
theorem memmoveDown_eq_copy (memory : Memory) (d s : Addr) (n : Nat)
    (small : n < 2 ^ 64) (behind : n ≤ (s - d).toNat) :
    memmoveDown memory (d + BitVec.ofNat 64 n) (s + BitVec.ofNat 64 n) n =
      copy memory d s n := by
  induction n generalizing memory with
  | zero => simp [memmoveDown]
  | succ n induction =>
      have stepDown : ∀ base : Addr,
          base + BitVec.ofNat 64 (n + 1) - 1#64 = base + BitVec.ofNat 64 n := by
        intro base
        bv_omega
      rw [memmoveDown, stepDown d, stepDown s,
        induction _ (by omega) (by omega)]
      exact copy_update_down memory d s n small behind

/-- `memmove` copies, whatever way the two regions overlap. -/
theorem memmove_eq_copy (memory : Memory) (dst src : Addr) (n : BitVec 64)
    (targetFits : dst.toNat + n.toNat ≤ 2 ^ 64)
    (sourceFits : src.toNat + n.toNat ≤ 2 ^ 64) :
    memmove memory dst src n = copy memory dst src n.toNat := by
  have size : BitVec.ofNat 64 n.toNat = n := by
    simp
  unfold memmove
  split
  · rename_i overlap
    have behind : n.toNat ≤ (src - dst).toNat := by
      obtain ⟨below, _⟩ := overlap
      bv_omega
    have down :=
      memmoveDown_eq_copy memory dst src n.toNat n.isLt behind
    rwa [size] at down
  · rename_i notOverlap
    apply memmoveUp_eq_copy memory dst src n.toNat n.isLt
    by_cases same : dst = src
    · exact Or.inl same
    · right
      bv_omega

/-- The target holds what stood at the source, and no other byte is changed. -/
structure Copied (before after : Memory) (dst src : Addr) (n : BitVec 64) :
    Prop where
  target : ∀ i < n.toNat,
    after (dst + BitVec.ofNat 64 i) = before (src + BitVec.ofNat 64 i)
  others : ∀ address,
    address.toNat < dst.toNat ∨ dst.toNat + n.toNat ≤ address.toNat →
      after address = before address

/-- For every memory and any two regions that do not run over the end of the
address space, `memmove` and `memcpy` copy, however the regions overlap. -/
theorem memmove_copies_overlapping (memory : Memory) (dst src : Addr)
    (n : BitVec 64) (targetFits : dst.toNat + n.toNat ≤ 2 ^ 64)
    (sourceFits : src.toNat + n.toNat ≤ 2 ^ 64) :
    Copied memory (memmove memory dst src n) dst src n ∧
      Copied memory (memcpy memory dst src n) dst src n := by
  have copies : Copied memory (memmove memory dst src n) dst src n := by
    rw [memmove_eq_copy memory dst src n targetFits sourceFits]
    refine ⟨?_, ?_⟩
    · intro i bound
      exact copy_offset memory dst src bound (by omega)
    · intro address beyond
      apply copy_outside
      rw [within_iff_between targetFits]
      omega
  exact ⟨copies, copies⟩

/-- Eight bytes moved up by three, and back down. -/
theorem memmove_copies_overlapping_by_three :
    ∃ memory : Memory,
      Copied memory (memmove memory 0x1003 0x1000 8) 0x1003 0x1000 8 ∧
        Copied memory (memmove memory 0x1000 0x1003 8) 0x1000 0x1003 8 :=
  ⟨fun address => address.setWidth 8,
    (memmove_copies_overlapping _ _ _ _ (by decide) (by decide)).1,
    (memmove_copies_overlapping _ _ _ _ (by decide) (by decide)).1⟩

/-! ## safestrcpy -/

/--
The loop `while (--n > 0 && (*s++ = *t++) != 0)`, with the place `s` it
leaves.
-/
def safestrcpyLoop (memory : Memory) (s t : Addr) :
    Nat → Memory × Addr
  | 0 => (memory, s)
  | n + 1 =>
      if 0 < n then
        let byte := memory t
        let memory := Function.update memory s byte
        if byte ≠ 0 then
          safestrcpyLoop memory (s + 1#64) (t + 1#64) n
        else
          (memory, s + 1#64)
      else
        (memory, s)

/-- `safestrcpy`: at most `n` bytes, always terminated. -/
def safestrcpy (memory : Memory) (s t : Addr) (n : Int) : Memory :=
  if n ≤ 0 then
    memory
  else
    let (memory, s) := safestrcpyLoop memory s t n.toNat
    Function.update memory s 0

theorem safestrcpyLoop_outside (memory : Memory) (s t target : Addr)
    (n : Nat) (small : n < 2 ^ 64) (outside : ¬ Within s n target) :
    (safestrcpyLoop memory s t n).1 target = memory target := by
  induction n generalizing memory s t with
  | zero => rfl
  | succ n induction =>
      have whole := within_add_iff s target 1 n (by omega)
      rw [Nat.add_comm, not_congr whole, not_or] at outside
      have notFirst : target ≠ s := by
        rintro rfl
        exact outside.1 (by simp [Within])
      unfold safestrcpyLoop
      split
      · dsimp only
        split
        · rw [induction _ _ _ (by omega) outside.2,
            Function.update_of_ne notFirst]
        · exact Function.update_of_ne notFirst _ _
      · rfl

/-- The loop leaves room for the terminator. -/
theorem safestrcpyLoop_place (memory : Memory) (s t : Addr)
    (n : Nat) (positive : 0 < n) (small : n < 2 ^ 64) :
    Within s n (safestrcpyLoop memory s t n).2 := by
  induction n generalizing memory s t with
  | zero => omega
  | succ n induction =>
      have whole := fun target => within_add_iff s target 1 n (by omega)
      simp only [Nat.add_comm 1 n] at whole
      unfold safestrcpyLoop
      split
      · rename_i more
        dsimp only
        split
        · exact (whole _).mpr (Or.inr (induction _ _ _ more (by omega)))
        · refine (whole _).mpr (Or.inr ?_)
          simp only [Within]
          bv_omega
      · simp [Within]

theorem safestrcpy_outside (memory : Memory) (s t target : Addr)
    (n : Int) (small : n < 2 ^ 63) (outside : ¬ Within s n.toNat target) :
    safestrcpy memory s t n target = memory target := by
  unfold safestrcpy
  split
  · rfl
  · rename_i positive
    have place :=
      safestrcpyLoop_place memory s t n.toNat (by omega) (by omega)
    have notPlace :
        target ≠ (safestrcpyLoop memory s t n.toNat).2 := by
      intro same
      exact outside (same ▸ place)
    change Function.update _ _ _ target = _
    rw [Function.update_of_ne notPlace]
    exact safestrcpyLoop_outside memory s t target n.toNat (by omega) outside

end Rt64.Klib.String
