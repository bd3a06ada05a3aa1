import Rt64.Lib.ByteMemory

/-!
# Segments of a 32-bit processor

A segment register holds a selector and, out of sight, the segment that it stands
for.  In real mode the base is sixteen times the selector, and what else is known of
the segment stays as it was; in protected mode all of it comes from a descriptor.
-/

namespace Rt64.Lib.Segmentation

open Rt64.Lib.ByteMemory

structure Segment where
  selector : BitVec 16
  base : BitVec 32
  limit : BitVec 32
  /-- The type of the segment. -/
  code : Bool
  /-- A code segment can be read, or another one can be written. -/
  access : Bool
  /-- Addresses and operands have 32 bits. -/
  wide : Bool
deriving DecidableEq, Repr

/-- The segment that a descriptor describes. -/
def decode (selector : BitVec 16) (desc : BitVec 64) : Segment where
  selector := selector
  base := desc.extractLsb' 56 8 ++ desc.extractLsb' 16 24
  limit :=
    let limit := desc.extractLsb' 48 4 ++ desc.extractLsb' 0 16
    -- with the granularity bit, the unit is 4096 bytes
    if desc.getLsbD 55 then limit ++ 0xFFF#12 else limit.setWidth 32
  code := desc.getLsbD 43
  access := desc.getLsbD 41
  wide := desc.getLsbD 54

/-- A segment of code or data that is present, for level zero, and neither expands
down nor conforms. -/
def Plain (desc : BitVec 64) : Prop :=
  desc.getLsbD 47 ∧ desc.extractLsb' 45 2 = 0 ∧ desc.getLsbD 44 ∧
    ¬ desc.getLsbD 42

instance (desc : BitVec 64) : Decidable (Plain desc) :=
  inferInstanceAs (Decidable (_ ∧ _ ∧ _ ∧ _))

/-- A null selector stands for no memory. -/
def Segment.null (selector : BitVec 16) : Segment where
  selector := selector
  base := 0
  limit := 0
  code := false
  access := false
  wide := false

/-- A segment register is loaded in real mode. -/
def Segment.real (segment : Segment) (selector : BitVec 16) : Segment :=
  { segment with selector, base := selector.setWidth 32 <<< 4 }

/-- The descriptor table of a processor. -/
structure Table where
  limit : BitVec 16
  base : BitVec 32
  /-- The quad at an address. -/
  quad : BitVec 32 → BitVec 64

/-- The descriptor of a selector, which has to lie in the table.  There is no local
table, and the level of the selector is zero. -/
def Table.find (table : Table) (selector : BitVec 16) : Option (BitVec 64) :=
  if selector &&& 7 = 0 ∧ selector.toNat + 7 ≤ table.limit.toNat then
    some (table.quad (table.base + selector.setWidth 32))
  else none

/-- Protected mode loads a register for data. -/
def Table.loadData (table : Table) (selector : BitVec 16) : Option Segment :=
  if selector = 0 then some (.null selector)
  else do
    let desc ← table.find selector
    if Plain desc ∧ (decode selector desc).code = false then
      return decode selector desc
    else none

/-- The register of the stack takes only what can be written. -/
def Table.loadStack (table : Table) (selector : BitVec 16) : Option Segment := do
  let segment ← table.loadData selector
  if segment.access then return segment else none

/-- A far jump. -/
def Table.loadCode (table : Table) (selector : BitVec 16) : Option Segment := do
  let desc ← table.find selector
  if Plain desc ∧ (decode selector desc).code then
    return decode selector desc
  else none

/-- A segment that leaves addresses as they are. -/
structure Segment.Flat (segment : Segment) : Prop where
  base : segment.base = 0
  limit : segment.limit = 0xFFFFFFFF
  wide : segment.wide = true
  access : segment.access = true

end Rt64.Lib.Segmentation
