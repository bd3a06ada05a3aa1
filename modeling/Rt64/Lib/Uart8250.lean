import Rt64.Lib.ByteMemory

/-!
# A serial port

The transmitting side of an 8250.  A byte that is written to it waits in a holding
register until it leaves over the line; the status register says whether the
holding register is empty.  Time is counted in reads of the status register.  How
long a byte waits, and what the other bits of the status register are, is the
port's own business: a `Pace` fixes it.

A byte that is written while another one waits replaces it.  A driver that reads
the status until the holding register is empty loses no byte.  One that gives up
after some reads may lose bytes, but does not bring them out of order.
-/

namespace Rt64.Lib.Uart8250

open Rt64.Lib.ByteMemory

/-- What a driver cannot know. -/
structure Pace where
  /-- How many reads of the status find each byte in the holding register. -/
  delay : Nat → Nat
  /-- The other bits at each read of the status. -/
  others : Nat → Byte

structure Uart where
  /-- The bytes that have left over the line or wait in the holding register. -/
  sent : List Byte
  /-- How many reads of the status will find the last of them waiting. -/
  busy : Nat
  written : Nat
  reads : Nat
  /-- The registers that set up the port. -/
  ier : Byte
  fcr : Byte
  lcr : Byte
  mcr : Byte
  dll : Byte
  dlm : Byte

variable (pace : Pace)

/-- With this bit of the line control register set, the registers 0 and 1 are the
divisor of the clock. -/
def Uart.latched (uart : Uart) : Bool :=
  uart.lcr.getLsbD 7

/-- Bit 5 is the one for the holding register.  Without a FIFO, bit 7 is zero. -/
def status (uart : Uart) : Byte :=
  let others := pace.others uart.reads &&& 0x5F
  if uart.busy = 0 then others ||| 0x20 else others

def readStatus (uart : Uart) : Byte × Uart :=
  (status pace uart,
    { uart with busy := uart.busy - 1, reads := uart.reads + 1 })

/-- A byte goes to the holding register. -/
def transmit (byte : Byte) (uart : Uart) : Uart :=
  { uart with
    sent := (if uart.busy = 0 then uart.sent else uart.sent.dropLast) ++ [byte]
    busy := pace.delay uart.written
    written := uart.written + 1 }

/-- A register is written. -/
def write (reg : Nat) (byte : Byte) (uart : Uart) : Uart :=
  match reg with
  | 0 => if uart.latched then { uart with dll := byte } else transmit pace byte uart
  | 1 => if uart.latched then { uart with dlm := byte } else { uart with ier := byte }
  | 2 => { uart with fcr := byte }
  | 3 => { uart with lcr := byte }
  | 4 => { uart with mcr := byte }
  | _ => uart

/-! ## Polling -/

/-- The status is read until the holding register is empty, but not more often than
the limit says. -/
def poll : Nat → Uart → Uart
  | 0, uart => uart
  | limit + 1, uart =>
      let (value, uart) := readStatus pace uart
      if value &&& 0x20 = 0 then poll limit uart else uart

/-- A byte is sent by a driver that polls. -/
def send (limit : Nat) (uart : Uart) (byte : Byte) : Uart :=
  transmit pace byte (poll pace limit uart)

def sendAll (limit : Nat) (text : List Byte) (uart : Uart) : Uart :=
  text.foldl (send pace limit) uart

section Polling

variable {pace} {uart : Uart} {limit : Nat} {byte : Byte}

theorem status_empty_iff : status pace uart &&& 0x20 = 0 ↔ uart.busy ≠ 0 := by
  have full (others : Byte) : (others &&& 0x5F) &&& 0x20 = 0 := by
    revert others
    decide
  have empty (others : Byte) : (others &&& 0x5F ||| 0x20) &&& 0x20 ≠ 0 := by
    revert others
    decide
  unfold status
  by_cases idle : uart.busy = 0
  · simp only [idle, if_true]
    exact iff_of_false (empty _) (by simp)
  · simp only [idle, if_false]
    exact iff_of_true (full _) idle

/-- A port that is there has a status that is not all ones. -/
theorem status_ne_ones : status pace uart ≠ 0xFF := by
  have split (others : Byte) :
      others &&& 0x5F ≠ 0xFF ∧ others &&& 0x5F ||| 0x20 ≠ 0xFF := by
    revert others
    decide
  unfold status
  split
  · exact (split _).2
  · exact (split _).1

/-- What polling leaves. -/
structure Polled (limit : Nat) (before after : Uart) : Prop where
  sent : after.sent = before.sent
  busy : after.busy = before.busy - limit
  written : after.written = before.written
  lcr : after.lcr = before.lcr
  most : after.reads ≤ before.reads + limit

theorem poll_spec : Polled limit uart (poll pace limit uart) := by
  induction limit generalizing uart with
  | zero => exact ⟨rfl, rfl, rfl, rfl, Nat.le_refl _⟩
  | succ limit induction =>
      rw [poll]
      dsimp only [readStatus]
      split
      case isTrue waits =>
        have rest := @induction
          { uart with busy := uart.busy - 1, reads := uart.reads + 1 }
        have most := rest.most
        have busy := rest.busy
        dsimp only at most busy
        exact ⟨rest.sent, by omega, rest.written, rest.lcr, by omega⟩
      case isFalse ready =>
        have idle : uart.busy = 0 := by
          by_contra waits
          exact ready (status_empty_iff.mpr waits)
        refine ⟨rfl, ?_, rfl, rfl, ?_⟩
        · show uart.busy - 1 = _
          omega
        · show uart.reads + 1 ≤ _
          omega

theorem send_lcr : (send pace limit uart byte).lcr = uart.lcr :=
  poll_spec.lcr

theorem send_reads : (send pace limit uart byte).reads ≤ uart.reads + limit :=
  poll_spec.most

theorem send_busy (delays : ∀ n, pace.delay n ≤ limit) :
    (send pace limit uart byte).busy ≤ limit :=
  delays _

/-- The byte is the last one on the line; at most the one before it is lost. -/
theorem send_sent :
    (send pace limit uart byte).sent =
      (if uart.busy ≤ limit then uart.sent else uart.sent.dropLast) ++ [byte] := by
  have polled := @poll_spec pace uart limit
  have idle : (poll pace limit uart).busy = 0 ↔ uart.busy ≤ limit := by
    rw [polled.busy]
    omega
  show (if (poll pace limit uart).busy = 0 then _ else _) ++ [byte] = _
  rw [polled.sent]
  simp only [idle]

end Polling

/-! ## Texts -/

section Texts

variable {pace} {uart : Uart} {limit : Nat} (text : List Byte)

theorem sendAll_append (more : List Byte) :
    sendAll pace limit (text ++ more) uart =
      sendAll pace limit more (sendAll pace limit text uart) :=
  List.foldl_append

theorem sendAll_lcr : (sendAll pace limit text uart).lcr = uart.lcr := by
  induction text generalizing uart with
  | nil => rfl
  | cons byte text induction => exact induction.trans send_lcr

/-- The time for a text is bounded, whatever the port does. -/
theorem sendAll_reads :
    (sendAll pace limit text uart).reads ≤ uart.reads + limit * text.length := by
  induction text generalizing uart with
  | nil => exact Nat.le_add_right _ _
  | cons byte text induction =>
      have rest := @induction (send pace limit uart byte)
      have first := @send_reads pace uart limit byte
      rw [List.length_cons, Nat.mul_succ]
      show (sendAll pace limit text (send pace limit uart byte)).reads ≤ _
      omega

/-- A port that is fast enough sends the whole text. -/
theorem sendAll_sent (delays : ∀ n, pace.delay n ≤ limit)
    (busy : uart.busy ≤ limit) :
    (sendAll pace limit text uart).sent = uart.sent ++ text := by
  induction text generalizing uart with
  | nil => exact (List.append_nil _).symm
  | cons byte text induction =>
      have rest := @induction (send pace limit uart byte) (send_busy delays)
      rw [send_sent, if_pos busy, List.append_assoc] at rest
      exact rest

/-- Any port sends bytes of the text in their order, and each at most once. -/
theorem sendAll_sublist :
    (sendAll pace limit text uart).sent.Sublist (uart.sent ++ text) := by
  induction text generalizing uart with
  | nil => exact (List.append_nil uart.sent).symm ▸ List.Sublist.refl _
  | cons byte text induction =>
      have rest := @induction (send pace limit uart byte)
      have first : (send pace limit uart byte).sent.Sublist
          (uart.sent ++ [byte]) := by
        rw [send_sent]
        split
        · exact .refl _
        · exact (List.dropLast_sublist _).append_right _
      have both := rest.trans (first.append_right text)
      rw [List.append_assoc] at both
      exact both

end Texts

end Rt64.Lib.Uart8250
