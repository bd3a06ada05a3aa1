import Rt64.Lib.ByteMemory

/-!
# The keyboard controller

The side of an 8042 that a program sees.  A byte that is written to one of its two
ports stays in the input buffer until the controller takes it; the status register
says whether the buffer is full.  How often the status has to be read until the
controller has taken a byte is its own business, and a `Pace` fixes it.

A byte that is written while the buffer is full replaces the one in it.  A program
that reads the status until the buffer is empty loses no byte.
-/

namespace Rt64.Lib.Controller8042

open Rt64.Lib.ByteMemory

/-- What a program cannot know. -/
structure Pace where
  /-- How many reads of the status find each byte in the buffer. -/
  delay : Nat → Nat
  /-- The other bits at each read of the status. -/
  others : Nat → Byte

/-- The two ports. -/
inductive Port where
  | data
  | command
deriving DecidableEq, Repr

structure Controller where
  input : Option (Port × Byte)
  /-- How many reads of the status will find the buffer full. -/
  busy : Nat
  written : Nat
  reads : Nat
  /-- The next byte of data is for the output port. -/
  expects : Bool
  /-- The output port: bit 0 is the line that resets the processor if it is low,
  and bit 1 lets the address line 20 through. -/
  output : Byte

/-- The controller takes the byte in its buffer. -/
def Controller.take (controller : Controller) : Controller :=
  match controller.input with
  | none => controller
  | some (.command, byte) =>
      { controller with input := none, expects := decide (byte = 0xd1) }
  | some (.data, byte) =>
      { controller with
        input := none
        expects := false
        output := if controller.expects then byte else controller.output }

variable (pace : Pace)

/-- Bit 1 of the status is the one for the input buffer. -/
def readStatus (controller : Controller) : Byte × Controller :=
  let others := pace.others controller.reads &&& ~~~ 2#8
  if controller.busy = 0 then
    (others, { controller.take with reads := controller.reads + 1 })
  else
    (others ||| 2, { controller with
      busy := controller.busy - 1
      reads := controller.reads + 1 })

def write (port : Port) (byte : Byte) (controller : Controller) : Controller :=
  { controller with
    input := some (port, byte)
    busy := pace.delay controller.written
    written := controller.written + 1 }

/-- The status is read until the buffer is empty. -/
def waitLoop : Nat → Controller → Option Controller
  | 0, _ => none
  | fuel + 1, controller =>
      let (value, controller) := readStatus pace controller
      if value &&& 2 ≠ 0 then waitLoop fuel controller else some controller

section Waiting

variable {pace} {controller : Controller}

theorem readStatus_idle (idle : controller.busy = 0) :
    (readStatus pace controller).1 &&& 2 = 0 ∧
      (readStatus pace controller).2 =
        { controller.take with reads := controller.reads + 1 } := by
  have empty (others : Byte) : others &&& ~~~ 2#8 &&& 2 = 0 := by
    revert others
    decide
  rw [readStatus, if_pos idle]
  exact ⟨empty _, rfl⟩

theorem readStatus_busy (waits : controller.busy ≠ 0) :
    (readStatus pace controller).1 &&& 2 ≠ 0 ∧
      (readStatus pace controller).2 =
        { controller with
          busy := controller.busy - 1
          reads := controller.reads + 1 } := by
  have full (others : Byte) : (others &&& ~~~ 2#8 ||| 2) &&& 2 ≠ 0 := by
    revert others
    decide
  rw [readStatus, if_neg waits]
  exact ⟨full _, rfl⟩

/-- What waiting leaves. -/
structure Waited (before after : Controller) : Prop where
  input : after.input = none
  expects : after.expects = before.take.expects
  output : after.output = before.take.output

theorem take_input : controller.take.input = none := by
  unfold Controller.take
  split
  · assumption
  · rfl
  · rfl

theorem Waited.of_same {before middle after : Controller}
    (waited : Waited middle after) (input : middle.input = before.input)
    (expects : middle.expects = before.expects)
    (output : middle.output = before.output) : Waited before after := by
  have same : middle.take.expects = before.take.expects ∧
      middle.take.output = before.take.output := by
    simp only [Controller.take, input, expects, output]
    split
    · exact ⟨expects, output⟩
    · exact ⟨rfl, rfl⟩
    · exact ⟨rfl, rfl⟩
  exact ⟨waited.input, waited.expects.trans same.1, waited.output.trans same.2⟩

/-- Waiting ends, and then the controller has taken the byte. -/
theorem exists_waitLoop (controller : Controller) :
    ∃ after, Waited controller after ∧ ∀ fuel > controller.busy,
      waitLoop pace fuel controller = some after := by
  generalize waits : controller.busy = busy
  induction busy generalizing controller with
  | zero =>
      have read := @readStatus_idle pace _ waits
      refine ⟨(readStatus pace controller).2, ?_, fun fuel enough => ?_⟩
      · rw [read.2]
        exact ⟨take_input, rfl, rfl⟩
      · rcases fuel with _ | fuel
        · omega
        · exact if_neg (not_not.mpr read.1)
  | succ busy induction =>
      have read := @readStatus_busy pace controller (by omega)
      have shorter : (readStatus pace controller).2.busy = busy := by
        rw [read.2]
        show controller.busy - 1 = busy
        omega
      rcases induction (readStatus pace controller).2 shorter with
        ⟨after, waited, loops⟩
      rw [read.2] at waited
      refine ⟨after, waited.of_same rfl rfl rfl, fun fuel enough => ?_⟩
      rcases fuel with _ | fuel
      · omega
      · exact (if_pos read.1).trans (loops fuel (by omega))

end Waiting

end Rt64.Lib.Controller8042
