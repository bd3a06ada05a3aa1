import Mathlib.Data.BitVec

/-!
# Messages between local APICs

A write to the lower half of the interrupt command register sends a message to the
processors that the two halves name.  Here it matters what a processor does with an
INIT and with a startup message: the first one resets it, and it then waits for the
second one, which starts it in a page of the first megabyte.  A startup message for a
processor that does not wait has no effect.
-/

namespace Rt64.Lib.InterProcessor

/-! ## The command -/

section Command

variable (low : BitVec 32)

def vector : BitVec 8 := low.extractLsb' 0 8

def deliveryMode : BitVec 3 := low.extractLsb' 8 3

/-- The level is asserted. -/
def asserted : Bool := low.getLsbD 14

def levelTriggered : Bool := low.getLsbD 15

def shorthand : BitVec 2 := low.extractLsb' 18 2

end Command

abbrev modeInit : BitVec 3 := 5
abbrev modeStartup : BitVec 3 := 6

/-- A physical destination that stands for all processors. -/
abbrev everyone : BitVec 8 := 0xFF

def destination (high : BitVec 32) : BitVec 8 := (high >>> 24).setWidth 8

/-- The message that the processor `self` sends goes to the processor `id`. -/
def addressed (self : BitVec 8) (high low : BitVec 32) (id : BitVec 8) : Bool :=
  if shorthand low = 0 then
    id == destination high || destination high == everyone
  else if shorthand low = 1 then id == self
  else if shorthand low = 2 then true
  else id != self

/-! ## The processor -/

inductive Activity where
  | running
  | waiting
deriving DecidableEq

structure Processor where
  activity : Activity
  /-- The addresses that it has been started at. -/
  starts : List (BitVec 32)
deriving DecidableEq

/-- A message arrives.  The end of an INIT level has no effect, and the other modes
do not reset or start a processor. -/
def Processor.accept (low : BitVec 32) (processor : Processor) : Processor :=
  if deliveryMode low = modeInit then
    if levelTriggered low && !asserted low then processor
    else { processor with activity := .waiting }
  else if deliveryMode low = modeStartup then
    match processor.activity with
    | .waiting =>
        { activity := .running
          starts := processor.starts ++ [(vector low).setWidth 32 <<< 12] }
    | .running => processor
  else processor

/-- All processors after a write to the lower half. -/
def send (self : BitVec 8) (high low : BitVec 32)
    (processors : BitVec 8 → Processor) : BitVec 8 → Processor := fun id =>
  if addressed self high low id then (processors id).accept low
  else processors id

section Accept

variable {low : BitVec 32} {processor : Processor}

theorem accept_init (mode : deliveryMode low = modeInit)
    (level : asserted low = true) :
    processor.accept low = { processor with activity := .waiting } := by
  rw [Processor.accept, if_pos mode, level, Bool.not_true, Bool.and_false]
  rfl

theorem accept_deassert (mode : deliveryMode low = modeInit)
    (trigger : levelTriggered low = true) (level : asserted low = false) :
    processor.accept low = processor := by
  rw [Processor.accept, if_pos mode, trigger, level]
  rfl

theorem accept_startup (mode : deliveryMode low = modeStartup) :
    processor.accept low =
      match processor.activity with
      | .waiting =>
          { activity := .running
            starts := processor.starts ++ [(vector low).setWidth 32 <<< 12] }
      | .running => processor := by
  have other : deliveryMode low ≠ modeInit := by
    rw [mode]
    decide
  rw [Processor.accept, if_neg other, if_pos mode]

end Accept

section Send

variable {self : BitVec 8} {high low : BitVec 32}
variable {processors : BitVec 8 → Processor}

/-- Without a shorthand, one processor gets the message. -/
theorem send_single (single : shorthand low = 0)
    (named : destination high ≠ everyone) :
    send self high low processors =
      Function.update processors (destination high)
        ((processors (destination high)).accept low) := by
  funext id
  rw [send, addressed, if_pos single, beq_false_of_ne named, Bool.or_false]
  by_cases same : id = destination high
  · rw [same, beq_self_eq_true, if_pos rfl, Function.update_self]
  · rw [beq_false_of_ne same, if_neg Bool.false_ne_true,
      Function.update_of_ne same]

/-- A message that nobody reacts to. -/
theorem send_ignored (ignored : ∀ processor : Processor,
    processor.accept low = processor) :
    send self high low processors = processors := by
  funext id
  rw [send, ignored, ite_self]

end Send

end Rt64.Lib.InterProcessor
