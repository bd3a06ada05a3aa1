import Rt64.Lib.ByteMemory
import Mathlib.Tactic.IntervalCases

/-!
# Numerals as bytes

The numeral of a number is the text that `Nat.toDigits` gives it, as ASCII bytes:
the most significant digit first, without leading zeros, and `0` for zero.  The
module has the recursion from the last digit, which is the one that is found
first by division, and the value of a numeral with leading zeros.
-/

namespace Rt64.Lib.Numeral

open Rt64.Lib.ByteMemory

/-- The ASCII code of a character. -/
def charByte (c : Char) : Byte :=
  BitVec.ofNat 8 c.toNat

def ascii (text : String) : List Byte :=
  text.toList.map charByte

def digitByte (digit : Nat) : Byte :=
  charByte digit.digitChar

def numeral (base number : Nat) : List Byte :=
  (base.toDigits number).map charByte

section

variable {base : Nat}

/-- The last digit is the remainder, and the others are the quotient's. -/
theorem numeral_eq_if (radix : 1 < base) (number : Nat) :
    numeral base number =
      if number < base then [digitByte number]
      else numeral base (number / base) ++ [digitByte (number % base)] := by
  unfold numeral
  rw [Nat.toDigits_eq_if radix]
  split
  · rfl
  · rw [List.map_append]
    rfl

theorem length_numeral_pos (number : Nat) : 0 < (numeral base number).length := by
  rw [numeral, List.length_map]
  exact Nat.length_toDigits_pos

theorem length_numeral_le_iff (radix : 1 < base) {number count : Nat}
    (positive : 0 < count) :
    (numeral base number).length ≤ count ↔ number < base ^ count := by
  rw [numeral, List.length_map]
  exact Nat.length_toDigits_le_iff radix positive

end

/-! ## Values -/

/-- The value of a lower-case hexadecimal digit. -/
def digitValue (c : Byte) : Option Nat :=
  if charByte '0' ≤ c ∧ c ≤ charByte '9' then
    some (c - charByte '0').toNat
  else if charByte 'a' ≤ c ∧ c ≤ charByte 'f' then
    some ((c - charByte 'a').toNat + 10)
  else
    none

/-- The value of a text of digits, or none if it has another character. -/
def textValue (base : Nat) (text : List Byte) : Option Nat :=
  text.foldlM (fun value c => (digitValue c).map (base * value + ·)) 0

theorem digitValue_digitByte {digit : Nat} (bound : digit < 16) :
    digitValue (digitByte digit) = some digit := by
  interval_cases digit <;> rfl

section

variable {base : Nat}

theorem textValue_append_digit (radix : base ≤ 16) {text : List Byte}
    {value digit : Nat} (known : textValue base text = some value)
    (bound : digit < base) :
    textValue base (text ++ [digitByte digit]) = some (base * value + digit) := by
  unfold textValue at known ⊢
  rw [List.foldlM_append, known]
  show ((digitValue (digitByte digit)).map (base * value + ·)).bind some = _
  rw [digitValue_digitByte (by omega)]
  rfl

/-- Leading zeros do not count. -/
theorem textValue_zeros (count : Nat) (text : List Byte) :
    textValue base (List.replicate count (charByte '0') ++ text) =
      textValue base text := by
  induction count with
  | zero => rfl
  | succ count induction =>
      have zero : (digitValue (charByte '0')).map (base * 0 + ·) = some 0 := rfl
      rw [List.replicate_succ, List.cons_append, ← induction]
      unfold textValue
      rw [List.foldlM_cons, zero]
      rfl

theorem textValue_numeral (radix : 1 < base) (radix' : base ≤ 16)
    (number : Nat) : textValue base (numeral base number) = some number := by
  induction number using Nat.strong_induction_on with
  | h number induction =>
      rw [numeral_eq_if radix]
      split
      · rename_i small
        have single := @textValue_append_digit base radix' [] 0 number rfl small
        rwa [List.nil_append, Nat.mul_zero, Nat.zero_add] at single
      · rename_i large
        have less : number / base < number :=
          Nat.div_lt_self (by omega) radix
        have whole := textValue_append_digit radix' (induction _ less)
          (Nat.mod_lt number (by omega))
        rwa [Nat.div_add_mod] at whole

end

/-! ## Fields -/

theorem digitByte_ne_space {digit : Nat} (bound : digit < 16) :
    digitByte digit ≠ charByte ' ' := by
  interval_cases digit <;> decide

section

variable {base : Nat} (radix : 1 < base) (radix' : base ≤ 16)
include radix radix'

theorem ne_space_of_mem_numeral {number : Nat} {c : Byte}
    (inside : c ∈ numeral base number) : c ≠ charByte ' ' := by
  induction number using Nat.strong_induction_on with
  | h number induction =>
      rw [numeral_eq_if radix] at inside
      split at inside
      · rename_i small
        rw [List.mem_singleton.mp inside]
        exact digitByte_ne_space (by omega)
      · rename_i large
        rcases List.mem_append.mp inside with front | last
        · exact induction _ (Nat.div_lt_self (by omega) radix) front
        · rw [List.mem_singleton.mp last]
          exact digitByte_ne_space ((Nat.mod_lt number (by omega)).trans_le radix')

/-- Without its spaces a field has the numeral. -/
theorem dropWhile_leftpad (width number : Nat) :
    ((numeral base number).leftpad width (charByte ' ')).dropWhile
        (· == charByte ' ') = numeral base number := by
  have padding : ∀ c ∈ List.replicate (width - (numeral base number).length)
      (charByte ' '), (c == charByte ' ') = true := by
    intro c inside
    rw [List.eq_of_mem_replicate inside]
    exact beq_self_eq_true _
  rw [List.leftpad, List.dropWhile_append_of_pos padding]
  have digits := @ne_space_of_mem_numeral base radix radix' number
  generalize numeral base number = text at digits
  cases text with
  | nil => rfl
  | cons c rest =>
      refine List.dropWhile_cons_of_neg ?_
      rw [beq_iff_eq]
      exact digits List.mem_cons_self

/-- A number can be read off the field it is printed to. -/
theorem leftpad_numeral_injective {width number number' : Nat}
    (same : (numeral base number).leftpad width (charByte ' ') =
      (numeral base number').leftpad width (charByte ' ')) : number = number' := by
  have numerals := congrArg (List.dropWhile (· == charByte ' ')) same
  rw [dropWhile_leftpad radix radix', dropWhile_leftpad radix radix'] at numerals
  have values := congrArg (textValue base) numerals
  rw [textValue_numeral radix radix', textValue_numeral radix radix'] at values
  exact Option.some.inj values

end

end Rt64.Lib.Numeral
