import Rt64.Kernel.Cga
import Rt64.Kernel.ConsoleFormat
import Rt64.Lib.Uart8250

/-!
# The serial driver, and the console on its devices

`uart.c`, and the part of `console.c` that reaches the devices: `consputc` sends a
character over the serial line and types it on the screen, and `vpanic` stops the
console after its report.

`uartputc` waits for the holding register, but not for longer than 128 reads of the
status, as `microdelay` does not wait.
-/

namespace Rt64.Kernel.Uart

open Rt64.Lib.ByteMemory
open Rt64.Lib.Numeral
open Rt64.Lib.Uart8250
open Rt64.Include.Defs
open Rt64.Include.Access
open Rt64.Kernel.Console (Args vcprintf StringAt)
open Rt64.Kernel.ConsoleFormat
open Rt64.Kernel.Cga (Screen Tape Shown cgaputc position)

variable (pace : Pace)

/-! ## Ports -/

abbrev com1 : BitVec 16 := 0x3f8

/-- A write to a port of the device, if there is one. -/
def outb (port : BitVec 16) (data : Byte) (device : Option Uart) :
    Option Uart :=
  device.map (write pace (port - com1).toNat data)

/-- `inb(COM1 + 5)`.  With no device, nothing pulls the lines of the bus down. -/
def inbStatus : Option Uart → Byte × Option Uart
  | none => (0xFF, none)
  | some uart => ((readStatus pace uart).1, some (readStatus pace uart).2)

/-! ## The driver -/

structure Serial where
  device : Option Uart
  /-- The variable `uart`. -/
  uart : Bool

/-- The loop of `uartputc`, with the rounds that are left. -/
def waitLoop : Nat → Option Uart → Option Uart
  | 0, device => device
  | rounds + 1, device =>
      let (value, device) := inbStatus pace device
      if value &&& 0x20 = 0 then waitLoop rounds device else device

def uartputc (c : BitVec 32) (serial : Serial) : Serial :=
  if serial.uart = false then
    serial
  else
    let device := waitLoop pace 128 serial.device
    { serial with device := outb pace (com1 + 0) (c.setWidth 8) device }

/-- `"\nuart: earlyinit\n"`. -/
def announcement : List Byte :=
  ascii "\nuart: earlyinit\n"

def uartearlyinit (serial : Serial) : Serial :=
  let device := outb pace (com1 + 2) 0 serial.device
  let device := outb pace (com1 + 3) 0x80 device
  let device := outb pace (com1 + 0) (BitVec.ofNat 8 (115200 / 9600)) device
  let device := outb pace (com1 + 1) 0 device
  let device := outb pace (com1 + 3) 0x03 device
  let device := outb pace (com1 + 4) 0 device
  let device := outb pace (com1 + 1) 0x01 device
  let (value, device) := inbStatus pace device
  if value = 0xFF then
    { serial with device }
  else
    announcement.foldl (fun serial c => uartputc pace (c.signExtend 32) serial)
      { device, uart := true }

/-! ## The console -/

structure Console where
  panicked : Bool
  serial : Serial
  screen : Screen

/-- `consputc`.  After a panic it does not come to an end. -/
def consputc (c : BitVec 32) (console : Console) : Except Stop Console :=
  if console.panicked then
    .error (.halt .fuel)
  else do
    let serial :=
      if c = Console.backspace then
        uartputc pace 0x08 (uartputc pace 0x20 (uartputc pace 0x08 console.serial))
      else
        uartputc pace c console.serial
    let screen ← cgaputc c console.screen
    return { console with serial, screen }

/-- The characters that are printed, one call of `consputc` for each. -/
def consputs (text : List Byte) (console : Console) : Except Stop Console :=
  text.foldlM (fun console c => consputc pace (c.signExtend 32) console) console

/-- A call of `cprintf`, with the memory that it reads from. -/
structure Call where
  view : View
  fmt : Addr
  args : Args

def cprintf (fuel : Nat) (call : Call) (console : Console) :
    Except Stop Console := do
  let (out, _) ← vcprintf call.view fuel call.fmt call.args
  consputs pace out console

def cprintfs (fuel : Nat) (calls : List Call) (console : Console) :
    Except Stop Console :=
  calls.foldlM (fun console call => cprintf pace fuel call console) console

/-- The string literals of `vpanic`. -/
structure PanicText where
  head : Addr
  backtrace : Addr
  frame : Addr

/-- The loop over the frames of the stack. -/
def backtrace (view : View) (text : PanicText) : Nat → Addr → Console →
    Except Stop Console
  | 0, _, _ => .error (.halt .fuel)
  | fuel + 1, rbp, console => do
      let previous ← fetchWord view rbp 8
      if previous ≠ 0 then
        let pc ← fetchWord view (rbp + 8) 8
        let console ← cprintf pace fuel ⟨view, text.frame, fun _ => pc⟩ console
        backtrace view text fuel previous console
      else
        return console

/-- `vpanic` up to its endless loop. -/
def vpanic (text : PanicText) (fuel : Nat) (call : Call) (rbp : Addr)
    (console : Console) : Except Stop Console := do
  let console ← cprintf pace fuel ⟨call.view, text.head, fun _ => 0⟩ console
  let console ← cprintf pace fuel call console
  let console ← cprintf pace fuel ⟨call.view, text.backtrace, fun _ => 0⟩ console
  let console ← backtrace pace call.view text fuel rbp console
  return { console with panicked := true }

/-! ## The driver and its device -/

section Driver

variable {pace} {device : Option Uart}

theorem waitLoop_some (rounds : Nat) (uart : Uart) :
    waitLoop pace rounds (some uart) = some (poll pace rounds uart) := by
  induction rounds generalizing uart with
  | zero => rfl
  | succ rounds induction =>
      rw [waitLoop, poll]
      dsimp only [inbStatus]
      split
      · exact induction _
      · rfl

/-- The divisor is not in the place of the holding register. -/
def Unlatched (device : Option Uart) : Prop :=
  ∀ uart ∈ device, uart.latched = false

theorem Unlatched.map {change : Uart → Uart} (unlatched : Unlatched device)
    (kept : ∀ uart, (change uart).lcr = uart.lcr) :
    Unlatched (device.map change) := by
  intro after found
  rcases Option.map_eq_some_iff.mp found with ⟨uart, found', rfl⟩
  rw [Uart.latched, kept]
  exact unlatched uart found'

/-- The driver of the device, with its variable as `uartearlyinit` leaves it. -/
def driver (device : Option Uart) : Serial where
  device := device
  uart := device.isSome

theorem uartputc_driver (c : BitVec 32) (unlatched : Unlatched device) :
    uartputc pace c (driver device) =
      driver (device.map fun uart => send pace 128 uart (c.setWidth 8)) := by
  cases device with
  | none => rfl
  | some uart =>
      have lcr : (poll pace 128 uart).latched = false := by
        rw [Uart.latched, poll_spec.lcr]
        exact unlatched uart rfl
      have written : write pace (com1 + 0 - com1).toNat (c.setWidth 8)
          (poll pace 128 uart) = send pace 128 uart (c.setWidth 8) := by
        show (if (poll pace 128 uart).latched then _ else _) = _
        rw [lcr]
        rfl
      show Serial.mk (outb pace (com1 + 0) (c.setWidth 8)
        (waitLoop pace 128 (some uart))) true = _
      rw [waitLoop_some]
      exact congrArg (fun uart => Serial.mk (some uart) true) written

theorem unlatched_sendAll (text : List Byte) (unlatched : Unlatched device) :
    Unlatched (device.map (sendAll pace 128 text)) :=
  unlatched.map fun _ => sendAll_lcr text

theorem map_sendAll_append (front back : List Byte) :
    (device.map (sendAll pace 128 front)).map (sendAll pace 128 back) =
      device.map (sendAll pace 128 (front ++ back)) := by
  rw [Option.map_map]
  congr 1
  funext uart
  exact (sendAll_append front back).symm

theorem map_sendAll_nil : device.map (sendAll pace 128 []) = device := by
  cases device <;> rfl

theorem foldl_uartputc (text : List Byte) (unlatched : Unlatched device) :
    text.foldl (fun serial c => uartputc pace (c.signExtend 32) serial)
      (driver device) = driver (device.map (sendAll pace 128 text)) := by
  induction text generalizing device with
  | nil => rw [map_sendAll_nil]; rfl
  | cons c text induction =>
      have byte : (c.signExtend 32).setWidth 8 = c := by
        revert c
        decide +kernel
      have first := @unlatched_sendAll pace device [c] unlatched
      rw [List.foldl_cons, uartputc_driver _ unlatched, byte]
      exact (induction first).trans
        (congrArg driver (map_sendAll_append [c] text))

end Driver

/-- The port as `uartearlyinit` sets it up: 9600 baud, eight data bits, no parity,
no FIFO, and an interrupt for a byte that is received. -/
def setUp (uart : Uart) : Uart :=
  { uart with fcr := 0, dll := 12, dlm := 0, lcr := 3, mcr := 0, ier := 1 }

/-- The port after the setup and the check that it is there. -/
def checked (uart : Uart) : Uart :=
  (readStatus pace (setUp uart)).2

theorem checked_latched (uart : Uart) : (checked pace uart).latched = false := by
  show BitVec.getLsbD (3 : Byte) 7 = false
  decide

theorem outb_setUp (uart : Uart) :
    outb pace (com1 + 1) 0x01 (outb pace (com1 + 4) 0 (outb pace (com1 + 3) 0x03
      (outb pace (com1 + 1) 0 (outb pace (com1 + 0)
        (BitVec.ofNat 8 (115200 / 9600)) (outb pace (com1 + 3) 0x80
          (outb pace (com1 + 2) 0 (some uart))))))) = some (setUp uart) := by
  simp [outb, write, Uart.latched, setUp]

theorem uartearlyinit_some (uart : Uart) (known : Bool) :
    uartearlyinit pace ⟨some uart, known⟩ =
      driver (some (sendAll pace 128 announcement (checked pace uart))) := by
  have unlatched : Unlatched (some (checked pace uart)) := by
    rintro _ ⟨rfl⟩
    exact checked_latched pace uart
  rw [uartearlyinit, outb_setUp]
  show (if status pace (setUp uart) = 0xFF then _ else _) = _
  rw [if_neg status_ne_ones]
  exact foldl_uartputc announcement unlatched

/-! ## Characters -/

section Characters

variable {pace} {device : Option Uart}

/-- The characters of a text as they come to the screen. -/
def chars (text : List Byte) : List (BitVec 32) :=
  text.map (·.setWidth 32)

/-- It makes no difference that a `char` is signed: both extensions give the
same byte and the same cell. -/
theorem consputc_signExtend (c : Byte) (console : Console) :
    consputc pace (c.signExtend 32) console =
      consputc pace (c.setWidth 32) console := by
  have newline : c.signExtend 32 = Cga.newline ↔ c.setWidth 32 = Cga.newline := by
    revert c
    decide +kernel
  have signed : c.signExtend 32 ≠ Console.backspace := by
    revert c
    decide +kernel
  have unsigned : c.setWidth 32 ≠ Console.backspace := by
    revert c
    decide +kernel
  have glyph : Cga.glyph (c.signExtend 32) = Cga.glyph (c.setWidth 32) := by
    revert c
    decide +kernel
  have byte : (c.signExtend 32).setWidth 8 = (c.setWidth 32).setWidth 8 := by
    revert c
    decide +kernel
  have typed (pos : Nat) (mem : Memory) :
      Cga.typeChar (c.signExtend 32) pos mem =
        Cga.typeChar (c.setWidth 32) pos mem := by
    simp only [Cga.typeChar, newline, if_neg signed, if_neg unsigned, glyph]
  have screen : cgaputc (c.signExtend 32) console.screen =
      cgaputc (c.setWidth 32) console.screen := by
    simp only [cgaputc, typed]
  have serial : uartputc pace (c.signExtend 32) console.serial =
      uartputc pace (c.setWidth 32) console.serial := by
    simp only [uartputc, byte]
  simp only [consputc, screen, serial, if_neg signed, if_neg unsigned]

/-- The console goes on: the driver knows its device, and the screen is a window
on the tape. -/
structure Open (device : Option Uart) (tape : Tape) (console : Console) :
    Prop where
  running : console.panicked = false
  serial : console.serial = driver device
  unlatched : Unlatched device
  shown : Shown console.screen.mem (position console.screen) tape
  inside : position console.screen < 24 * 80

theorem Open.consputc {tape : Tape} {console : Console}
    (isOpen : Open device tape console) (c : Byte) :
    ∃ console', Uart.consputc pace (c.signExtend 32) console = .ok console' ∧
      Open (device.map (sendAll pace 128 [c])) (tape.put (c.setWidth 32))
        console' := by
  have notBackspace : c.setWidth 32 ≠ Console.backspace := by
    revert c
    decide +kernel
  have byte : (c.setWidth 32).setWidth 8 = c := by
    revert c
    decide +kernel
  rcases isOpen.shown.cgaputc isOpen.inside (c.setWidth 32) with
    ⟨screen, typed, inside, _, shown, _⟩
  have sent : uartputc pace (c.setWidth 32) console.serial =
      driver (device.map (sendAll pace 128 [c])) := by
    rw [isOpen.serial, uartputc_driver _ isOpen.unlatched, byte]
    rfl
  refine ⟨⟨false, driver (device.map (sendAll pace 128 [c])), screen⟩, ?_, rfl,
    rfl, unlatched_sendAll [c] isOpen.unlatched, shown, inside⟩
  rw [consputc_signExtend, Uart.consputc, isOpen.running, if_neg Bool.false_ne_true,
    if_neg notBackspace, typed, sent]
  rfl

theorem Open.consputs {tape : Tape} {console : Console}
    (isOpen : Open device tape console) (text : List Byte) :
    ∃ console', Uart.consputs pace text console = .ok console' ∧
      Open (device.map (sendAll pace 128 text))
        ((chars text).foldl Tape.put tape) console' := by
  induction text generalizing device tape console with
  | nil =>
      refine ⟨console, rfl, ?_⟩
      rw [map_sendAll_nil]
      exact isOpen
  | cons c text induction =>
      rcases @Open.consputc pace _ _ _ isOpen c with ⟨middle, first, isOpen'⟩
      rcases induction isOpen' with ⟨console', rest, isOpen''⟩
      rw [map_sendAll_append] at isOpen''
      refine ⟨console', ?_, isOpen''⟩
      rw [Uart.consputs, List.foldlM_cons, first, bind_ok]
      exact rest

end Characters

/-! ## Calls of `cprintf` -/

section Calls

variable {pace} {device : Option Uart} {tape : Tape} {console : Console}

theorem Open.cprintf (isOpen : Open device tape console) {call : Call}
    {out : List Byte} {ap : Nat}
    (prints : Prints call.view call.fmt call.args out ap) :
    ∃ bound console', Open (device.map (sendAll pace 128 out))
        ((chars out).foldl Tape.put tape) console' ∧
      ∀ fuel ≥ bound, Uart.cprintf pace fuel call console = .ok console' := by
  rcases prints with ⟨bound, formats⟩
  rcases @Open.consputs pace _ _ _ isOpen out with ⟨console', printed, isOpen'⟩
  refine ⟨bound, console', isOpen', fun fuel enough => ?_⟩
  rw [Uart.cprintf, formats fuel enough, bind_ok]
  exact printed

/-- The call prints the text. -/
def Call.Puts (call : Call) (out : List Byte) : Prop :=
  ∃ ap, Prints call.view call.fmt call.args out ap

theorem chars_append (front back : List Byte) :
    (chars (front ++ back)).foldl Tape.put tape =
      (chars back).foldl Tape.put ((chars front).foldl Tape.put tape) := by
  rw [chars, List.map_append, List.foldl_append]
  rfl

theorem Open.cprintfs (isOpen : Open device tape console) {calls : List Call}
    {outs : List (List Byte)} (puts : List.Forall₂ Call.Puts calls outs) :
    ∃ bound console', Open (device.map (sendAll pace 128 outs.flatten))
        ((chars outs.flatten).foldl Tape.put tape) console' ∧
      ∀ fuel ≥ bound, Uart.cprintfs pace fuel calls console = .ok console' := by
  induction puts generalizing device tape console with
  | nil =>
      refine ⟨0, console, ?_, fun _ _ => rfl⟩
      rw [List.flatten_nil, map_sendAll_nil]
      exact isOpen
  | cons first _ induction =>
      rcases first with ⟨ap, prints⟩
      rcases @Open.cprintf pace _ _ _ isOpen _ _ _ prints with
        ⟨bound, middle, isOpen', printed⟩
      rcases induction isOpen' with ⟨bound', console', isOpen'', rest⟩
      rw [map_sendAll_append, ← chars_append, ← List.flatten_cons] at isOpen''
      refine ⟨max bound bound', console', isOpen'', fun fuel enough => ?_⟩
      rw [Uart.cprintfs, List.foldlM_cons, printed fuel (by omega), bind_ok]
      exact rest fuel (by omega)

end Calls

/-- The device after `uartearlyinit`. -/
def announced (device : Option Uart) : Option Uart :=
  device.map fun uart => sendAll pace 128 announcement (checked pace uart)

/-- With the serial driver started, the console is open. -/
theorem open_uartearlyinit (device : Option Uart) (screen : Screen)
    (inside : position screen < 24 * 80) :
    Open (announced pace device) (Tape.ofScreen screen)
      ⟨false, uartearlyinit pace ⟨device, false⟩, screen⟩ := by
  have started : uartearlyinit pace ⟨device, false⟩ =
      driver (announced pace device) := by
    cases device with
    | none => rfl
    | some uart => exact uartearlyinit_some pace uart false
  have unlatched : Unlatched (announced pace device) := by
    intro after found
    rcases Option.map_eq_some_iff.mp found with ⟨uart, _, rfl⟩
    rw [Uart.latched, sendAll_lcr]
    exact checked_latched pace uart
  exact ⟨rfl, started, unlatched, Cga.shown_ofScreen screen, inside⟩

/--
From the start of the serial driver on, every text that is printed gets to the
screen and, if there is a serial port, to the line.  If the holding register is
empty after at most 128 reads of the status, the bytes on the line are the
announcement and the texts, complete and in order.  A port that is slower loses
bytes, but sends no byte twice or out of order, and cannot hold the kernel up for
more than 128 reads for a byte.  If there is no port, the driver leaves it alone.
-/
theorem console_transcript (device : Option Uart) (screen : Screen)
    (inside : position screen < 24 * 80) {calls : List Call}
    {outs : List (List Byte)} (puts : List.Forall₂ Call.Puts calls outs) :
    ∃ bound console,
      (∀ fuel ≥ bound, cprintfs pace fuel calls
        ⟨false, uartearlyinit pace ⟨device, false⟩, screen⟩ = .ok console) ∧
      Shown console.screen.mem (position console.screen)
        ((chars outs.flatten).foldl Tape.put (Tape.ofScreen screen)) ∧
      console.serial.uart = device.isSome ∧
      (device = none → console.serial.device = none) ∧
      ∀ uart, device = some uart → ∃ uart', console.serial.device = some uart' ∧
        uart'.lcr = 3 ∧
        uart'.sent.Sublist (uart.sent ++ announcement ++ outs.flatten) ∧
        uart'.reads ≤ uart.reads + 1 +
          128 * (announcement ++ outs.flatten).length ∧
        (uart.busy ≤ 128 → (∀ n, pace.delay n ≤ 128) →
          uart'.sent = uart.sent ++ announcement ++ outs.flatten) := by
  have isOpen := open_uartearlyinit pace device screen inside
  rcases @Open.cprintfs pace _ _ _ isOpen _ _ puts with
    ⟨bound, console, isOpen', printed⟩
  have serial := isOpen'.serial
  refine ⟨bound, console, printed, isOpen'.shown, ?_, ?_, ?_⟩
  · rw [serial]
    cases device <;> rfl
  · rintro rfl
    rw [serial]
    rfl
  · rintro uart rfl
    let text := announcement ++ outs.flatten
    refine ⟨sendAll pace 128 text (checked pace uart), ?_, sendAll_lcr text, ?_,
      sendAll_reads text, ?_⟩
    · rw [serial]
      exact congrArg some (sendAll_append announcement outs.flatten).symm
    · rw [List.append_assoc]
      exact sendAll_sublist text
    · intro busy delays
      rw [List.append_assoc]
      exact sendAll_sent text delays (Nat.le_trans (Nat.sub_le _ _) busy)

/-- A port from which every byte leaves after three reads of the status. -/
def samplePace : Pace where
  delay _ := 3
  others _ := 0xFF

def sampleUart : Uart where
  sent := []
  busy := 0
  written := 0
  reads := 0
  ier := 0
  fcr := 0
  lcr := 0
  mcr := 0
  dll := 0
  dlm := 0

def sampleCall : Call where
  view := textView "n=%4y"
  fmt := 0x1000
  args _ := 255

theorem sampleCall_puts : sampleCall.Puts (ascii "n=  ff") := by
  let tokens : List Token := [.literal (charByte 'n') (by decide),
    .literal (charByte '=') (by decide), .conversion [4] .y]
  have stored : StringAt sampleCall.view 0x1000 (Format.text ⟨tokens, none⟩) := by
    decide +kernel
  have fits : Matches (fun _ => 255) (fun _ => []) sampleCall.view tokens 0 :=
    matches_of_isNumeric _ _ _ (by decide) 0
  exact ⟨1, @prints_format (fun _ => 255) (fun _ => []) _ _ ⟨tokens, none⟩
    (by decide) fits stored⟩

theorem console_transcript_number :
    ∃ bound console uart,
      (∀ fuel ≥ bound, cprintfs samplePace fuel [sampleCall]
        ⟨false, uartearlyinit samplePace ⟨some sampleUart, false⟩,
          Cga.sampleScreen⟩ = .ok console) ∧
      console.serial.device = some uart ∧
      uart.sent = ascii "\nuart: earlyinit\nn=  ff" := by
  rcases console_transcript samplePace (some sampleUart) Cga.sampleScreen
      (by decide) (.cons sampleCall_puts .nil) with
    ⟨bound, console, printed, _, _, _, devices⟩
  rcases devices sampleUart rfl with ⟨uart, found, _, _, _, complete⟩
  refine ⟨bound, console, uart, printed, found, ?_⟩
  rw [complete (by decide) fun _ => (by decide : 3 ≤ 128)]
  decide +kernel

/-! ## The report of a panic -/

/-- The frames of a stack, from the innermost one on: a frame has the address of
the next one and, above it, the address to return to.  After the last one there is
a zero. -/
def Frames (view : View) : Addr → List (BitVec 64) → Prop
  | rbp, [] => fetchWord view rbp 8 = .ok (0 : BitVec 64)
  | rbp, pc :: pcs => ∃ previous : BitVec 64, previous ≠ 0 ∧
      fetchWord view rbp 8 = .ok previous ∧
      fetchWord view (rbp + 8) 8 = .ok pc ∧ Frames view previous pcs

/-- `"  %p\n"` with its argument. -/
def frameLine (pc : BitVec 64) : List Byte :=
  ascii "  " ++ (numeral 16 pc.toNat).leftpad 16 (charByte '0') ++ ascii "\n"

/-- What `vpanic` prints. -/
def report (message : List Byte) (pcs : List (BitVec 64)) : List Byte :=
  ascii "======== panic ========\n" ++ message ++ ascii "pc backtrace:\n" ++
    pcs.flatMap frameLine

/-- The literals are in memory. -/
structure PanicText.Stored (view : View) (text : PanicText) : Prop where
  headNonnull : text.head ≠ 0
  head : StringAt view text.head (ascii "======== panic ========\n")
  backtraceNonnull : text.backtrace ≠ 0
  backtrace : StringAt view text.backtrace (ascii "pc backtrace:\n")
  frameNonnull : text.frame ≠ 0
  frame : StringAt view text.frame (ascii "  %p\n")

theorem prints_plain {view : View} {fmt : Addr} {args : Args} {text : List Byte}
    (plain : ∀ c ∈ text, c ≠ 0 ∧ c ≠ charByte '%') (nonnull : fmt ≠ 0)
    (stored : StringAt view fmt text) : Prints view fmt args text 0 := by
  have numeric : ∀ token ∈ literals text plain, token.isNumeric = true := by
    intro token inside
    rcases List.mem_pmap.mp inside with ⟨c, _, rfl⟩
    rfl
  have spelled : Format.text ⟨literals text plain, none⟩ = text := by
    rw [Format.text, List.append_nil, literals]
    clear stored numeric
    induction text with
    | nil => rfl
    | cons c text induction => exact congrArg (c :: ·) (induction _)
  have printed := @prints_format args (fun _ => []) view fmt
    ⟨literals text plain, none⟩ nonnull
    (matches_of_isNumeric _ _ _ numeric 0) (spelled.symm ▸ stored)
  rw [render_literals, taken_literals] at printed
  exact printed

theorem prints_frameLine {view : View} {fmt : Addr} (pc : BitVec 64)
    (nonnull : fmt ≠ 0) (stored : StringAt view fmt (ascii "  %p\n")) :
    Prints view fmt (fun _ => pc) (frameLine pc) 1 := by
  let tokens : List Token := [.literal (charByte ' ') (by decide),
    .literal (charByte ' ') (by decide), .conversion [] .p,
    .literal (charByte '\n') (by decide)]
  have spelled : Format.text ⟨tokens, none⟩ = ascii "  %p\n" := by
    decide +kernel
  have fits : Matches (fun _ => pc) (fun _ => []) view tokens 0 :=
    ⟨trivial, trivial, ⟨nofun, nofun⟩, trivial, trivial⟩
  have rendered : render (fun _ => pc) (fun _ => []) tokens 0 = frameLine pc := by
    have spaces : ascii "  " = [charByte ' ', charByte ' '] := by decide
    have newline : ascii "\n" = [charByte '\n'] := by decide
    rw [frameLine, spaces, newline, List.append_assoc]
    rfl
  rw [← rendered]
  exact prints_format nonnull fits (spelled.symm ▸ stored)

section Panic

variable {pace} {device : Option Uart} {tape : Tape} {console : Console}
variable {view : View} {text : PanicText}

theorem Open.backtrace (stored : text.Stored view) {pcs : List (BitVec 64)}
    {rbp : Addr} (isOpen : Open device tape console)
    (frames : Frames view rbp pcs) :
    ∃ bound console',
      Open (device.map (sendAll pace 128 (pcs.flatMap frameLine)))
        ((chars (pcs.flatMap frameLine)).foldl Tape.put tape) console' ∧
      ∀ fuel ≥ bound,
        Uart.backtrace pace view text fuel rbp console = .ok console' := by
  induction pcs generalizing device tape console rbp with
  | nil =>
      have last : fetchWord view rbp 8 = .ok (0 : BitVec 64) := frames
      refine ⟨1, console, ?_, fun fuel enough => ?_⟩
      · rw [List.flatMap_nil, map_sendAll_nil]
        exact isOpen
      · rcases fuel with _ | fuel
        · omega
        · rw [Uart.backtrace, last]
          rfl
  | cons pc pcs induction =>
      rcases frames with ⟨previous, nonzero, link, ret, outer⟩
      rcases @Open.cprintf pace _ _ _ isOpen ⟨view, text.frame, fun _ => pc⟩ _ _
          (prints_frameLine pc stored.frameNonnull stored.frame) with
        ⟨bound, middle, isOpen', printed⟩
      rcases induction isOpen' outer with ⟨bound', console', isOpen'', rest⟩
      rw [map_sendAll_append, ← chars_append, ← List.flatMap_cons] at isOpen''
      refine ⟨max bound bound' + 1, console', isOpen'', fun fuel enough => ?_⟩
      rcases fuel with _ | fuel
      · omega
      · rw [Uart.backtrace, link, bind_ok, if_pos nonzero, ret, bind_ok,
          printed fuel (by omega), bind_ok]
        exact rest fuel (by omega)

/-- After a panic, a call that returns has printed nothing. -/
theorem cprintf_of_panicked (panicked : console.panicked = true) {fuel : Nat}
    {call : Call} {after : Console}
    (returns : cprintf pace fuel call console = .ok after) : after = console := by
  rw [cprintf] at returns
  rcases exists_of_bind_ok returns with ⟨⟨out, ap⟩, _, printed⟩
  cases out with
  | nil => exact (Except.ok.inj printed).symm
  | cons c out =>
      have stuck : consputc pace (c.signExtend 32) console =
          .error (.halt .fuel) := by
        rw [consputc, panicked, if_pos rfl]
      dsimp only at printed
      rw [consputs, List.foldlM_cons, stuck] at printed
      cases printed

theorem cprintfs_of_panicked (panicked : console.panicked = true) {fuel : Nat}
    {calls : List Call} {after : Console}
    (returns : cprintfs pace fuel calls console = .ok after) :
    after = console := by
  induction calls with
  | nil => exact (Except.ok.inj returns).symm
  | cons call calls induction =>
      rw [cprintfs, List.foldlM_cons] at returns
      rcases exists_of_bind_ok returns with ⟨middle, first, rest⟩
      rw [cprintf_of_panicked panicked first] at rest
      exact induction rest

end Panic

/--
`panic` gets its report out: the header, the message and a line for each frame of
the stack come to the screen and, if the port is fast enough, to the serial line.
Nothing comes after it: a call of `cprintf` on another processor that returns has
printed nothing.
-/
theorem panic_report {device : Option Uart} {tape : Tape} {console : Console}
    (isOpen : Open device tape console) {text : PanicText} {call : Call}
    (stored : text.Stored call.view) {message : List Byte}
    (puts : call.Puts message) {rbp : Addr} {pcs : List (BitVec 64)}
    (frames : Frames call.view rbp pcs) :
    ∃ bound console',
      (∀ fuel ≥ bound, vpanic pace text fuel call rbp console = .ok console') ∧
      Shown console'.screen.mem (position console'.screen)
        ((chars (report message pcs)).foldl Tape.put tape) ∧
      (∀ uart, device = some uart → uart.busy ≤ 128 →
        (∀ n, pace.delay n ≤ 128) → ∃ uart',
          console'.serial.device = some uart' ∧
          uart'.sent = uart.sent ++ report message pcs) ∧
      ∀ fuel calls after,
        cprintfs pace fuel calls console' = .ok after → after = console' := by
  rcases puts with ⟨ap, prints⟩
  rcases @Open.cprintf pace _ _ _ isOpen ⟨call.view, text.head, fun _ => 0⟩ _ _
      (prints_plain (by decide +kernel) stored.headNonnull stored.head) with
    ⟨bound₁, console₁, isOpen₁, printed₁⟩
  rcases @Open.cprintf pace _ _ _ isOpen₁ call _ _ prints with
    ⟨bound₂, console₂, isOpen₂, printed₂⟩
  rcases @Open.cprintf pace _ _ _ isOpen₂
      ⟨call.view, text.backtrace, fun _ => 0⟩ _ _
      (prints_plain (by decide +kernel) stored.backtraceNonnull stored.backtrace) with
    ⟨bound₃, console₃, isOpen₃, printed₃⟩
  rcases @Open.backtrace pace _ _ _ _ _ stored _ _ isOpen₃ frames with
    ⟨bound₄, console₄, isOpen₄, printed₄⟩
  rw [map_sendAll_append, map_sendAll_append, map_sendAll_append, ← chars_append,
    ← chars_append, ← chars_append, ← List.append_assoc, ← List.append_assoc]
    at isOpen₄
  refine ⟨max (max bound₁ bound₂) (max bound₃ bound₄),
    { console₄ with panicked := true }, ?_, isOpen₄.shown, ?_, ?_⟩
  · intro fuel enough
    rw [vpanic, printed₁ fuel (by omega), bind_ok, printed₂ fuel (by omega),
      bind_ok, printed₃ fuel (by omega), bind_ok, printed₄ fuel (by omega),
      bind_ok]
    rfl
  · rintro uart rfl busy delays
    refine ⟨sendAll pace 128 (report message pcs) uart, ?_,
      sendAll_sent _ delays busy⟩
    show console₄.serial.device = _
    rw [isOpen₄.serial]
    rfl
  · intro fuel calls after returns
    exact cprintfs_of_panicked rfl returns

/-- The literals of `vpanic`, a message, and a stack with one frame. -/
def sampleView : View := fun address =>
  [(0x1000, ascii "======== panic ========\n" ++ [0]),
    (0x2000, ascii "pc backtrace:\n" ++ [0]),
    (0x3000, ascii "  %p\n" ++ [0]),
    (0x4000, ascii "sched running" ++ [0]),
    (0x8000, [0x40, 0x80, 0, 0, 0, 0, 0, 0, 0x56, 0x34, 0x12]),
    (0x800B, List.replicate 64 0)].findSome? fun (base, bytes) =>
      bytes[(address - base).toNat]?

/-- A console that has not printed anything. -/
def sampleConsole : Console :=
  ⟨false, driver (some sampleUart), Cga.sampleScreen⟩

theorem sampleConsole_open :
    Open (some sampleUart) (Tape.ofScreen Cga.sampleScreen) sampleConsole := by
  refine ⟨rfl, rfl, ?_, Cga.shown_ofScreen _, by decide⟩
  rintro _ ⟨rfl⟩
  decide

theorem panic_report_sched_running :
    ∃ bound console uart,
      (∀ fuel ≥ bound, vpanic samplePace ⟨0x1000, 0x2000, 0x3000⟩ fuel
        ⟨sampleView, 0x4000, fun _ => 0⟩ 0x8000 sampleConsole = .ok console) ∧
      console.serial.device = some uart ∧
      uart.sent = ascii
        ("======== panic ========\nsched runningpc backtrace:\n" ++
          "  0000000000123456\n") := by
  have stored : PanicText.Stored sampleView ⟨0x1000, 0x2000, 0x3000⟩ :=
    ⟨by decide, by decide +kernel, by decide, by decide +kernel, by decide,
      by decide +kernel⟩
  have puts : Call.Puts ⟨sampleView, 0x4000, fun _ => 0⟩
      (ascii "sched running") :=
    ⟨0, prints_plain (by decide +kernel) (by decide) (by decide +kernel)⟩
  have outermost : fetchWord sampleView 0x8040 8 = .ok (0 : BitVec 64) := by
    decide +kernel
  have frames : Frames sampleView 0x8000 [0x123456] :=
    ⟨0x8040, by decide, by decide +kernel, by decide +kernel, outermost⟩
  rcases panic_report samplePace sampleConsole_open stored puts frames with
    ⟨bound, console, panics, _, sent, _⟩
  rcases sent sampleUart rfl (by decide) fun _ => (by decide : 3 ≤ 128) with
    ⟨uart, found, complete⟩
  refine ⟨bound, console, uart, panics, found, ?_⟩
  rw [complete]
  decide +kernel

end Rt64.Kernel.Uart
