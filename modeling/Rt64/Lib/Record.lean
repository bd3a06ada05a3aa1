import Rt64.Lib.ByteMemory
import Mathlib.Logic.Function.Basic

/-!
# Records of words in memory

A C structure all of whose fields are 64-bit words is a set of field names with
an offset each.  The offsets of a `WordRecord` are distinct multiples of eight,
so storing to one field leaves the others alone, and the record is determined
by the bytes of its region.
-/

namespace Rt64.Lib.Record

open Rt64.Lib.ByteMemory

/-- Where the fields of a structure lie. -/
structure WordRecord (Field : Type) where
  offset : Field → BitVec 64
  index : Field → Nat
  /-- The size of the structure in bytes. -/
  size : Nat
  offset_eq : ∀ field, offset field = BitVec.ofNat 64 (8 * index field)
  index_fits : ∀ field, 8 * index field + 8 ≤ size
  index_injective : Function.Injective index
  small : size < 2 ^ 64

namespace WordRecord

variable {Field : Type} (record : WordRecord Field)

/-- The values of the fields of the record at `base`. -/
def read (mem : Memory) (base : Addr) (field : Field) : BitVec 64 :=
  load64 mem (base + record.offset field)

theorem within_of_field {base address : Addr} (field : Field)
    (inside : Within (base + record.offset field) 8 address) :
    Within base record.size address := by
  have fits := record.index_fits field
  have small := record.small
  rw [record.offset_eq] at inside
  exact inside.of_offset fits (by omega)

/-- The record depends on the bytes of its region only. -/
theorem read_congr {left right : Memory} {base : Addr}
    (agree : ∀ address, Within base record.size address →
      left address = right address) :
    record.read left base = record.read right base := by
  funext field
  exact load64_congr _ fun address inside =>
    agree address (record.within_of_field field inside)

theorem field_apart (base : Addr) {field field' : Field}
    (different : field ≠ field') :
    Apart (base + record.offset field) 8
      (base + record.offset field') 8 := by
  have fits := record.index_fits field
  have fits' := record.index_fits field'
  have small := record.small
  have places : record.index field ≠ record.index field' :=
    fun same => different (record.index_injective same)
  rw [record.offset_eq, record.offset_eq]
  rcases Nat.lt_or_gt_of_ne places with before | after
  · exact apart_of_offsets base (by omega) (by omega)
  · exact (apart_of_offsets base (by omega) (by omega)).symm

/-- Storing to one field changes that field only. -/
theorem read_store [DecidableEq Field] (mem : Memory) (base : Addr)
    (field : Field) (value : BitVec 64) :
    record.read (store64 mem (base + record.offset field) value) base =
      Function.update (record.read mem base) field value := by
  funext other
  by_cases same : other = field
  · subst same
    rw [Function.update_self]
    exact load64_store64_same _ _ _
  · rw [Function.update_of_ne same]
    exact load64_store64_apart _ _ _ _ (record.field_apart base same)

/-- A store outside the record leaves it alone. -/
theorem read_store_apart {mem : Memory} {base target : Addr}
    {value : BitVec 64} (apart : Apart base record.size target 8) :
    record.read (store64 mem target value) base = record.read mem base :=
  record.read_congr fun address inside =>
    store64_outside _ _ _ _ (apart address inside)

/-- A record whose bytes are all zero. -/
theorem read_fill (mem : Memory) (base : Addr) :
    record.read (fill mem base record.size 0) base = fun _ => 0 := by
  funext field
  apply load64_eq_zero
  intro address inside
  exact fill_inside _ _ _ _ _ (record.within_of_field field inside)

end WordRecord

end Rt64.Lib.Record
