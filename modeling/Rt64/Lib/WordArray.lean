import Rt64.Lib.ByteMemory

/-!
# Arrays of words in byte memory

The elements of an array are words of the same size, one after the other.  The
module says what a store to one element and the bulk updates of a run of them
leave in every element.
-/

namespace Rt64.Lib.WordArray

open Rt64.Lib.ByteMemory

/-- The place of an element. -/
def place (base : Addr) (width index : Nat) : Addr :=
  base + BitVec.ofNat 64 (width * index)

/-- The element at an index. -/
def element (memory : Memory) (base : Addr) (width index : Nat) :
    BitVec (8 * width) :=
  load memory (place base width index) width

section

variable {memory : Memory} {base : Addr} {width index : Nat}

/-- An element lies before the places that come after it. -/
theorem apart_of_lt {first size : Nat} (before : index < first)
    (small : width * first + size ≤ 2 ^ 64) :
    Apart (place base width index) width (place base width first) size := by
  have ordered : width * index + width ≤ width * first :=
    Nat.mul_le_mul_left width before
  exact apart_of_offsets base ordered small

/-- An element lies after a run of elements that ends before it. -/
theorem apart_of_ge {first count : Nat} (after : first + count ≤ index)
    (small : width * index + width ≤ 2 ^ 64) :
    Apart (place base width index) width
      (place base width first) (width * count) := by
  have ordered : width * first + width * count ≤ width * index := by
    rw [← Nat.mul_add]
    exact Nat.mul_le_mul_left width after
  exact (apart_of_offsets base ordered small).symm

theorem element_congr {memory' : Memory} (small : width ≤ 2 ^ 64)
    (agree : ∀ target, Within (place base width index) width target →
      memory target = memory' target) :
    element memory base width index = element memory' base width index :=
  load_congr (place base width index) width small agree

/-! ## One element -/

theorem element_store_same (value : BitVec (8 * width))
    (small : width ≤ 2 ^ 64) :
    element (store memory (place base width index) width value)
      base width index = value :=
  load_store_same memory (place base width index) width value small

theorem element_store_ne {other : Nat} (value : BitVec (8 * width))
    (different : index ≠ other)
    (small : width * index + width ≤ 2 ^ 64)
    (small' : width * other + width ≤ 2 ^ 64) :
    element (store memory (place base width other) width value)
      base width index = element memory base width index := by
  apply load_store_apart memory _ _ width width value (by omega)
  rcases Nat.lt_or_gt_of_ne different with before | after
  · exact apart_of_lt before small'
  · have apart := @apart_of_ge base width index other 1 after small
    rwa [Nat.mul_one] at apart

/-! ## A run of elements -/

/-- The first elements are stored, one after the other. -/
def storeElements (memory : Memory) (base : Addr) (width : Nat)
    (values : Nat → BitVec (8 * width)) : Nat → Memory
  | 0 => memory
  | count + 1 =>
      store (storeElements memory base width values count)
        (place base width count) width (values count)

theorem element_storeElements {values : Nat → BitVec (8 * width)} {count : Nat}
    (inside : index < count) (small : width * count ≤ 2 ^ 64) :
    element (storeElements memory base width values count) base width index =
      values index := by
  induction count with
  | zero => omega
  | succ count induction =>
      have total : width * (count + 1) = width * count + width := rfl
      have before : width * index ≤ width * count :=
        Nat.mul_le_mul_left width (Nat.le_of_lt_succ inside)
      rw [storeElements]
      by_cases last : index = count
      · subst last
        exact element_store_same _ (by omega)
      · rw [element_store_ne _ last (by omega) (by omega)]
        exact induction (by omega) (by omega)

theorem storeElements_outside {values : Nat → BitVec (8 * width)} {count : Nat}
    {target : Addr} (outside : ¬ Within base (width * count) target)
    (small : width * count < 2 ^ 64) :
    storeElements memory base width values count target = memory target := by
  induction count with
  | zero => rfl
  | succ count induction =>
      have total : width * (count + 1) = width * count + width := rfl
      have apart : ¬ Within (place base width count) width target := fun inside =>
        outside (inside.of_offset (by omega) (by omega))
      rw [storeElements, store_outside _ _ _ _ _ apart]
      exact induction
        (fun inside => outside (Nat.lt_of_lt_of_le inside (by omega))) (by omega)

theorem load_fill_zero {place : Addr} {size inner : Nat}
    (inside : ∀ target, Within place inner target → Within base size target)
    (small : inner ≤ 2 ^ 64) :
    load (fill memory base size 0) place inner = 0 := by
  apply BitVec.eq_of_getLsbD_eq
  intro bit bound
  have within := inside _ (within_offset place (by omega : bit / 8 < inner) small)
  rw [getLsbD_load _ _ _ _ bound, fill_inside _ _ _ _ _ within]
  simp

theorem element_fill_inside {first count : Nat} (low : first ≤ index)
    (high : index < first + count)
    (small : width * (first + count) < 2 ^ 64) (fits : width ≤ 2 ^ 64) :
    element (fill memory (place base width first) (width * count) 0)
      base width index = 0 := by
  apply load_fill_zero _ fits
  intro target inside
  have split : width * index = width * first + width * (index - first) := by
    rw [← Nat.mul_add, Nat.add_sub_cancel' low]
  have room : width * (index - first) + width ≤ width * count := by
    have next : index - first + 1 ≤ count := by omega
    exact Nat.mul_le_mul_left width next
  have total : width * (first + count) = width * first + width * count :=
    Nat.mul_add width first count
  have moved : place base width index = place base width first +
      BitVec.ofNat 64 (width * (index - first)) := by
    rw [place, place, split, BitVec.ofNat_add, BitVec.add_assoc]
  rw [moved] at inside
  exact inside.of_offset room (by omega)

theorem element_fill_outside {first count : Nat} {value : Byte}
    (outside : index < first ∨ first + count ≤ index)
    (small : width * (first + count) ≤ 2 ^ 64)
    (small' : width * index + width ≤ 2 ^ 64) :
    element (fill memory (place base width first) (width * count) value)
      base width index = element memory base width index := by
  have total : width * (first + count) = width * first + width * count :=
    Nat.mul_add width first count
  have apart : Apart (place base width index) width
      (place base width first) (width * count) := by
    rcases outside with before | after
    · exact apart_of_lt before (by omega)
    · exact apart_of_ge after small'
  apply element_congr (by omega)
  intro target inside
  exact fill_outside _ _ _ _ _ (apart target inside)

/-- Elements that are moved to the start of the array. -/
theorem element_copy_inside {first count : Nat} (low : index < count)
    (small : width * count < 2 ^ 64) :
    element (copy memory base (place base width first) (width * count))
      base width index = element memory base width (first + index) := by
  apply load_of_bytes
  intro i bound
  have room : width * index + i < width * count := by
    have next : width * (index + 1) ≤ width * count :=
      Nat.mul_le_mul_left width low
    rw [Nat.mul_add, Nat.mul_one] at next
    omega
  have target : place base width index + BitVec.ofNat 64 i =
      base + BitVec.ofNat 64 (width * index + i) := by
    rw [place, BitVec.ofNat_add, BitVec.add_assoc]
  have inside := within_offset base room small.le
  have source : place base width first +
      (base + BitVec.ofNat 64 (width * index + i) - base) =
        place base width (first + index) + BitVec.ofNat 64 i := by
    simp only [place, Nat.mul_add, BitVec.ofNat_add]
    rw [add_sub_cancel_left, BitVec.add_assoc, BitVec.add_assoc, BitVec.add_assoc]
  rw [target, copy, if_pos inside, source]

end

end Rt64.Lib.WordArray
