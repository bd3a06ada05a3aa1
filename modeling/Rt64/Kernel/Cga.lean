import Rt64.Kernel.Console
import Rt64.Klib.String
import Rt64.Lib.WordArray

/-!
# The text screen

`cgaputc` writes to the 80 x 25 cells of the screen memory and keeps the cursor
in two registers of the CRT controller.  When the cursor comes to the end of row
23 it moves the rows up by one.

Without the scrolling, the same characters would be written on a tape that has
no end.  Rows 0 to 23 of the screen are a window on that tape, which a scroll
moves on by one row.
-/

namespace Rt64.Kernel.Cga

open Rt64.Lib.ByteMemory
open Rt64.Lib.WordArray
open Rt64.Include.Defs
open Rt64.Include.Access
open Rt64.Klib.String
open Rt64.Kernel.Console (backspace)

/-! ## The CRT controller -/

/-- The registers of the controller and the one that is selected. -/
structure Crtc where
  index : Byte
  regs : Byte → Byte

abbrev crtport : BitVec 16 := 0x3d4

def outb (port : BitVec 16) (data : Byte) (crtc : Crtc) : Crtc :=
  if port = crtport then
    { crtc with index := data }
  else if port = crtport + 1 then
    { crtc with regs := Function.update crtc.regs crtc.index data }
  else
    crtc

def inb (port : BitVec 16) (crtc : Crtc) : Byte :=
  if port = crtport + 1 then crtc.regs crtc.index else crtc.index

/-! ## The screen -/

structure Screen where
  crtc : Crtc
  mem : Memory

abbrev crt : Addr := p2v 0xb8000

abbrev newline : BitVec 32 := 10

/-- A cell of the screen memory. -/
def cell (mem : Memory) (pos : Nat) : BitVec 16 :=
  element mem crt 2 pos

/-- A character in black on white. -/
def glyph (c : BitVec 32) : BitVec 16 :=
  ((c &&& 0xff) ||| 0x0700).setWidth 16

/-- An access to `size` bytes from a cell on has to lie in the 80 x 25 cells. -/
def span (pos : Nat) (size : BitVec 64) : Except Stop Unit :=
  if 2 * pos + size.toNat ≤ 2 * (80 * 25) then .ok () else .error (.bounds pos)

/-- `crt[pos] = data`. -/
def setCell (pos : Nat) (data : BitVec 16) (mem : Memory) :
    Except Stop Memory := do
  span pos 2
  return store mem (place crt 2 pos) 2 data

/-- The cursor that the registers hold. -/
def readPos (crtc : Crtc) : Nat × Crtc :=
  let crtc := outb crtport 14 crtc
  let pos := (inb (crtport + 1) crtc).toNat <<< 8
  let crtc := outb crtport 15 crtc
  (pos ||| (inb (crtport + 1) crtc).toNat, crtc)

def writePos (pos : Nat) (crtc : Crtc) : Crtc :=
  let crtc := outb crtport 14 crtc
  let crtc := outb (crtport + 1) (BitVec.ofNat 8 (pos >>> 8)) crtc
  let crtc := outb crtport 15 crtc
  outb (crtport + 1) (BitVec.ofNat 8 pos) crtc

/-- The first part of `cgaputc`: the character, and where it leaves the cursor. -/
def typeChar (c : BitVec 32) (pos : Nat) (mem : Memory) :
    Except Stop (Memory × Nat) :=
  if c = newline then
    return (mem, pos + (80 - pos % 80))
  else if c = backspace then
    return (mem, if 0 < pos then pos - 1 else pos)
  else do
    let mem ← setCell pos (glyph c) mem
    return (mem, pos + 1)

/-- The second part: a full screen is moved up.  The length that `memset` gets
is a 64-bit product with an `int`. -/
def scrollUp (pos : Nat) (mem : Memory) : Except Stop (Memory × Nat) :=
  if 24 ≤ pos / 80 then do
    span 0 (2 * 23 * 80)
    let mem := memmove mem crt (place crt 2 80) (2 * 23 * 80)
    let pos := pos - 80
    let size : BitVec 64 := 2 * BitVec.ofInt 64 (24 * 80 - pos)
    span pos size
    return (memset mem (place crt 2 pos) 0 size, pos)
  else
    return (mem, pos)

def cgaputc (c : BitVec 32) (screen : Screen) : Except Stop Screen := do
  let (pos, crtc) := readPos screen.crtc
  let (mem, pos) ← typeChar c pos screen.mem
  let (mem, pos) ← scrollUp pos mem
  let crtc := writePos pos crtc
  let mem ← setCell pos (glyph 0x20) mem
  return { crtc, mem }

/-- The calls for the characters of a text. -/
def cgaputs (text : List (BitVec 32)) (screen : Screen) : Except Stop Screen :=
  text.foldlM (fun screen c => cgaputc c screen) screen

/-- The position of the cursor between two calls. -/
def position (screen : Screen) : Nat :=
  (readPos screen.crtc).1

/-- The call for the character scrolls. -/
def scrolls (c : BitVec 32) (screen : Screen) : Bool :=
  match typeChar c (position screen) screen.mem with
  | .ok (_, pos) => decide (24 ≤ pos / 80)
  | .error _ => false

/-- How many of the calls scroll. -/
def scrollCount : List (BitVec 32) → Screen → Nat
  | [], _ => 0
  | c :: text, screen =>
      (scrolls c screen).toNat +
        match cgaputc c screen with
        | .ok screen => scrollCount text screen
        | .error _ => 0

/-! ## The tape -/

/-- A row of cells without an end, and where the next character goes.  A cell has
the colours, here always grey on black, above the character.  The tape also counts
the rows of 80 cells that are above a window of 24 rows. -/
structure Tape where
  cells : Nat → BitVec 16
  cursor : Nat
  above : Nat

/-- The tape before the first call: rows 0 to 23 of the screen, then zeros. -/
def Tape.ofScreen (screen : Screen) : Tape where
  cells i := if i < 24 * 80 then cell screen.mem i else 0
  cursor := position screen
  above := 0

/-- A character on the tape; the cursor does not go back out of the window. -/
def Tape.type (c : BitVec 32) (tape : Tape) : Tape :=
  if c = newline then
    { tape with cursor := tape.cursor + (80 - tape.cursor % 80) }
  else if c = backspace then
    if 80 * tape.above < tape.cursor then
      { tape with cursor := tape.cursor - 1 }
    else
      tape
  else
    { tape with
      cells := Function.update tape.cells tape.cursor (0x07#8 ++ c.setWidth 8)
      cursor := tape.cursor + 1 }

/-- The cell under the cursor is blanked, and the window moves on if the cursor
is below it. -/
def Tape.settle (tape : Tape) : Tape :=
  { tape with
    cells := Function.update tape.cells tape.cursor 0x0720
    above :=
      if 80 * tape.above + 24 * 80 ≤ tape.cursor then tape.above + 1
      else tape.above }

def Tape.put (tape : Tape) (c : BitVec 32) : Tape :=
  (tape.type c).settle

/-! ## The registers -/

section Registers

variable (crtc : Crtc)

theorem readPos_fst : (readPos crtc).1 =
    (crtc.regs 14).toNat * 256 + (crtc.regs 15).toNat := by
  show (crtc.regs 14).toNat <<< 8 ||| (crtc.regs 15).toNat = _
  rw [← Nat.shiftLeft_add_eq_or_of_lt (crtc.regs 15).isLt, Nat.shiftLeft_eq]

theorem readPos_writePos {pos : Nat} (small : pos < 2 ^ 16) :
    (readPos (writePos pos crtc)).1 = pos := by
  have high : (writePos pos crtc).regs 14 = BitVec.ofNat 8 (pos >>> 8) := rfl
  have low : (writePos pos crtc).regs 15 = BitVec.ofNat 8 pos := rfl
  rw [readPos_fst, high, low, BitVec.toNat_ofNat, BitVec.toNat_ofNat,
    Nat.shiftRight_eq_div_pow]
  omega

end Registers

/-! ## The cells -/

section Cells

variable {mem : Memory} {pos i : Nat}

theorem setCell_eq (data : BitVec 16) (inside : pos < 80 * 25) :
    setCell pos data mem = .ok (store mem (place crt 2 pos) 2 data) := by
  have fits : 2 * pos + (2 : BitVec 64).toNat ≤ 2 * (80 * 25) := by
    show 2 * pos + 2 ≤ 2 * (80 * 25)
    omega
  rw [setCell, span, if_pos fits]
  rfl

theorem cell_store (data : BitVec 16) (bound : pos < 80 * 25)
    (bound' : i < 80 * 25) :
    cell (store mem (place crt 2 pos) 2 data) i =
      if i = pos then data else cell mem i := by
  split
  · rename_i same
    subst same
    exact @element_store_same mem crt 2 i data (by decide)
  · rename_i different
    exact @element_store_ne mem crt 2 i pos data different (by omega) (by omega)

/-- The screen at a scroll: the cursor has just come to the end of row 23. -/
theorem scrollUp_full : scrollUp (24 * 80) mem =
    .ok (fill (copy mem crt (place crt 2 80) (2 * (23 * 80)))
      (place crt 2 (23 * 80)) (2 * 80) 0, 23 * 80) := by
  have moved := memmove_eq_copy mem crt (place crt 2 80) (2 * 23 * 80)
    (by decide) (by decide)
  have cleared := memset_eq_fill
    (copy mem crt (place crt 2 80) (2 * (23 * 80))) (place crt 2 (23 * 80)) 0
    (2 * 80) (by decide)
  show Except.ok (memset (memmove mem crt (place crt 2 80) (2 * 23 * 80))
    (place crt 2 (23 * 80)) 0 (2 * 80), 23 * 80) = _
  rw [moved]
  exact congrArg (fun mem => Except.ok (mem, 23 * 80)) cleared

theorem scrollUp_room (room : pos < 24 * 80) :
    scrollUp pos mem = .ok (mem, pos) := by
  have short : ¬ 24 ≤ pos / 80 := by omega
  rw [scrollUp, if_neg short]
  rfl

/-- Every row moves up by one, and row 23 is cleared. -/
theorem cell_scrolled (bound : i < 24 * 80) :
    cell (fill (copy mem crt (place crt 2 80) (2 * (23 * 80)))
      (place crt 2 (23 * 80)) (2 * 80) 0) i =
      if i < 23 * 80 then cell mem (80 + i) else 0 := by
  split
  · rename_i low
    exact (@element_fill_outside _ crt 2 i (23 * 80) 80 0 (Or.inl low)
      (by decide) (by omega)).trans
        (@element_copy_inside mem crt 2 i 80 (23 * 80) low (by decide))
  · rename_i high
    exact @element_fill_inside _ crt 2 i (23 * 80) 80 (Nat.not_lt.mp high) bound
      (by decide) (by decide)

end Cells

/-! ## Nothing else is written -/

/-- Only rows 0 to 23 of the screen differ. -/
def Framed (before after : Memory) : Prop :=
  ∀ address, ¬ Within crt (2 * (24 * 80)) address →
    after address = before address

section Framed

variable {mem mem' mem'' : Memory}

theorem Framed.refl (mem : Memory) : Framed mem mem :=
  fun _ _ => rfl

theorem Framed.trans (first : Framed mem mem') (second : Framed mem' mem'') :
    Framed mem mem'' := by
  intro address outside
  rw [second address outside, first address outside]

theorem framed_store {pos : Nat} (data : BitVec 16) (bound : pos < 24 * 80) :
    Framed mem (store mem (place crt 2 pos) 2 data) := by
  intro address outside
  refine store_outside _ _ _ _ _ fun inside => outside ?_
  exact inside.of_offset (by omega) (by omega)

theorem framed_scrolled : Framed mem
    (fill (copy mem crt (place crt 2 80) (2 * (23 * 80)))
      (place crt 2 (23 * 80)) (2 * 80) 0) := by
  intro address outside
  have notCleared : ¬ Within (place crt 2 (23 * 80)) (2 * 80) address :=
    fun inside => outside (inside.of_offset (by decide) (by decide))
  have notMoved : ¬ Within crt (2 * (23 * 80)) address :=
    fun inside => outside (Nat.lt_trans inside (by decide))
  rw [fill_outside _ _ _ _ _ notCleared, copy_outside _ _ _ _ _ notMoved]

/-- Row 24 is not among the rows that are written. -/
theorem Framed.cell (framed : Framed mem mem') {i : Nat} (low : 24 * 80 ≤ i)
    (high : i < 25 * 80) : cell mem' i = cell mem i := by
  have apart := @apart_of_ge crt 2 i 0 (24 * 80) (by omega) (by omega)
  apply @element_congr mem' crt 2 i mem (by decide)
  intro address inside
  exact framed address (apart address inside)

end Framed

/-! ## The window -/

/-- Rows 0 to 23 are the rows of the tape below those above the window, and the
tape has not been written below the window. -/
structure Shown (mem : Memory) (pos : Nat) (tape : Tape) : Prop where
  cursor : tape.cursor = 80 * tape.above + pos
  cells : ∀ i < 24 * 80, cell mem i = tape.cells (80 * tape.above + i)
  fresh : ∀ i, 80 * tape.above + 24 * 80 ≤ i → tape.cells i = 0

section Shown

variable {mem : Memory} {pos : Nat} {tape : Tape}

/-- The same cell is set on the screen and on the tape. -/
theorem Shown.setCell (shown : Shown mem pos tape) (data : BitVec 16)
    (inside : pos < 24 * 80) :
    Shown (store mem (place crt 2 pos) 2 data) pos
      { tape with cells := Function.update tape.cells tape.cursor data } := by
  have cursor := shown.cursor
  refine ⟨cursor, ?_, ?_⟩
  · intro i bound
    rw [cell_store data (by omega) (by omega)]
    show _ = Function.update tape.cells tape.cursor data (80 * tape.above + i)
    split
    · rename_i same
      rw [same, cursor, Function.update_self]
    · rename_i different
      rw [Function.update_of_ne (by omega), shown.cells i bound]
  · intro i below
    have other : i ≠ tape.cursor := by
      have inWindow : 80 * tape.above + 24 * 80 ≤ i := below
      omega
    show Function.update tape.cells tape.cursor data i = 0
    rw [Function.update_of_ne other, shown.fresh i below]

theorem Shown.move (shown : Shown mem pos tape) {cursor pos' : Nat}
    (moved : cursor = 80 * tape.above + pos') :
    Shown mem pos' { tape with cursor } :=
  ⟨moved, shown.cells, shown.fresh⟩

/-- The colours are the high byte of a cell, and the character is the low one. -/
theorem glyph_eq (c : BitVec 32) : glyph c = 0x07#8 ++ c.setWidth 8 := by
  apply BitVec.eq_of_getLsbD_eq
  intro i bound
  simp only [glyph, BitVec.getLsbD_setWidth, BitVec.getLsbD_or,
    BitVec.getLsbD_and, BitVec.getLsbD_append]
  rcases i with _ | _ | _ | _ | _ | _ | _ | _ | _ | _ | _ | _ | _ | _ | _ | _ | i
  all_goals first | omega | simp

/-- The character is set at the same place, and the cursors move together. -/
theorem Shown.type (shown : Shown mem pos tape) (c : BitVec 32)
    (inside : pos < 24 * 80) :
    ∃ mem' pos', typeChar c pos mem = .ok (mem', pos') ∧ pos' ≤ 24 * 80 ∧
      Framed mem mem' ∧ Shown mem' pos' (tape.type c) := by
  have cursor := shown.cursor
  unfold typeChar Tape.type
  split
  · refine ⟨_, _, rfl, by omega, .refl mem, shown.move ?_⟩
    omega
  · split
    · split
      · have back : 80 * tape.above < tape.cursor := by omega
        rw [if_pos back]
        refine ⟨_, _, rfl, by omega, .refl mem, shown.move ?_⟩
        omega
      · have start : ¬ 80 * tape.above < tape.cursor := by omega
        rw [if_neg start]
        exact ⟨_, _, rfl, inside.le, .refl mem, shown⟩
    · rw [setCell_eq _ (by omega), glyph_eq]
      refine ⟨_, _, rfl, inside, framed_store _ inside, ?_⟩
      exact (shown.setCell _ inside).move (congrArg (· + 1) cursor)

/-- A scroll moves the window on by a row. -/
theorem Shown.scroll (shown : Shown mem (24 * 80) tape) :
    Shown (fill (copy mem crt (place crt 2 80) (2 * (23 * 80)))
        (place crt 2 (23 * 80)) (2 * 80) 0) (23 * 80)
      { tape with above := tape.above + 1 } := by
  have cursor := shown.cursor
  refine ⟨?_, ?_, ?_⟩
  · show tape.cursor = 80 * (tape.above + 1) + 23 * 80
    omega
  · intro i bound
    rw [cell_scrolled bound]
    show _ = tape.cells (80 * (tape.above + 1) + i)
    split
    · rw [shown.cells (80 + i) (by omega)]
      congr 1
      omega
    · rw [shown.fresh _ (by omega)]
  · intro i below
    have low : 80 * (tape.above + 1) + 24 * 80 ≤ i := below
    exact shown.fresh i (by omega)

/-- The second half of a call: the scroll, if one is due, and the blank. -/
theorem Shown.settle (shown : Shown mem pos tape) (bound : pos ≤ 24 * 80) :
    ∃ mem' pos', scrollUp pos mem = .ok (mem', pos') ∧ pos' < 24 * 80 ∧
      Framed mem mem' ∧
      Shown (store mem' (place crt 2 pos') 2 (glyph 0x20)) pos' tape.settle ∧
      tape.settle.above = tape.above + (decide (24 ≤ pos / 80)).toNat := by
  have cursor := shown.cursor
  rcases Nat.lt_or_eq_of_le bound with room | rfl
  · have stays : ¬ 80 * tape.above + 24 * 80 ≤ tape.cursor := by omega
    have settled : tape.settle.above = tape.above := if_neg stays
    have short : ¬ 24 ≤ pos / 80 := by omega
    refine ⟨mem, pos, scrollUp_room room, room, .refl mem, ?_, ?_⟩
    · rw [Tape.settle, if_neg stays]
      exact shown.setCell (glyph 0x20) room
    · rw [settled, decide_eq_false short]
      rfl
  · have moves : 80 * tape.above + 24 * 80 ≤ tape.cursor := by omega
    have settled : tape.settle.above = tape.above + 1 := if_pos moves
    refine ⟨_, _, scrollUp_full, by decide, framed_scrolled, ?_, settled⟩
    rw [Tape.settle, if_pos moves]
    exact shown.scroll.setCell (glyph 0x20) (by decide)

end Shown

/-! ## Whole texts -/

/-- One call keeps the window in place, or moves it on by a row if it scrolls. -/
theorem Shown.cgaputc {screen : Screen} {tape : Tape}
    (shown : Shown screen.mem (position screen) tape)
    (inside : position screen < 24 * 80) (c : BitVec 32) :
    ∃ screen', Cga.cgaputc c screen = .ok screen' ∧
      position screen' < 24 * 80 ∧ Framed screen.mem screen'.mem ∧
      Shown screen'.mem (position screen') (tape.put c) ∧
      (tape.put c).above = tape.above + (scrolls c screen).toNat := by
  rcases shown.type c inside with ⟨mem, pos, typed, bound, framed, shown'⟩
  rcases shown'.settle bound with
    ⟨mem', pos', scrolled, inside', framed', shown'', above⟩
  have moved : position
      ⟨writePos pos' (readPos screen.crtc).2,
        store mem' (place crt 2 pos') 2 (glyph 0x20)⟩ = pos' :=
    readPos_writePos _ (by omega)
  refine ⟨⟨writePos pos' (readPos screen.crtc).2,
    store mem' (place crt 2 pos') 2 (glyph 0x20)⟩, ?_, ?_, ?_, ?_, ?_⟩
  · show (typeChar c (position screen) screen.mem >>= _) = _
    rw [typed, bind_ok]
    show (scrollUp pos mem >>= _) = _
    rw [scrolled, bind_ok]
    show (Cga.setCell pos' (glyph 0x20) mem' >>= _) = _
    rw [setCell_eq _ (by omega), bind_ok]
    rfl
  · rw [moved]
    exact inside'
  · exact (framed.trans framed').trans (framed_store _ inside')
  · rw [moved]
    exact shown''
  · have same : (tape.type c).above = tape.above := by
      unfold Tape.type
      split
      · rfl
      · split
        · split <;> rfl
        · rfl
    rw [Tape.put, above, same, scrolls, typed]

/-- The calls for a text keep the window, moved on by the scrolls among them. -/
theorem Shown.cgaputs {screen : Screen} {tape : Tape}
    (shown : Shown screen.mem (position screen) tape)
    (inside : position screen < 24 * 80) (text : List (BitVec 32)) :
    ∃ screen', Cga.cgaputs text screen = .ok screen' ∧
      position screen' < 24 * 80 ∧ Framed screen.mem screen'.mem ∧
      Shown screen'.mem (position screen') (text.foldl Tape.put tape) ∧
      (text.foldl Tape.put tape).above =
        tape.above + scrollCount text screen := by
  induction text generalizing screen tape with
  | nil => exact ⟨screen, rfl, inside, .refl _, shown, rfl⟩
  | cons c text induction =>
      rcases shown.cgaputc inside c with
        ⟨middle, called, inside', framed, shown', above⟩
      rcases induction shown' inside' with
        ⟨screen', calls, inside'', framed', shown'', above'⟩
      refine ⟨screen', ?_, inside'', framed.trans framed', shown'', ?_⟩
      · rw [Cga.cgaputs, List.foldlM_cons, called, bind_ok]
        exact calls
      · rw [List.foldl_cons, above', above, scrollCount, called, Nat.add_assoc]

theorem shown_ofScreen (screen : Screen) :
    Shown screen.mem (position screen) (Tape.ofScreen screen) := by
  refine ⟨(Nat.zero_add _).symm, ?_, ?_⟩
  · intro i bound
    show _ = if 80 * 0 + i < 24 * 80 then cell screen.mem (80 * 0 + i) else 0
    rw [Nat.mul_zero, Nat.zero_add, if_pos bound]
  · intro i below
    exact if_neg (Nat.not_lt.mpr (Nat.le_trans (Nat.le_add_left _ _) below))

/--
For every screen whose cursor is in rows 0 to 23 and every sequence of calls: all
stores are in the screen memory, the cursor stays in rows 0 to 23, and with `k`
the number of scrolls, these rows are the cells from `80 * k` on of the tape on
which the same characters are written.  Row 24 and all memory outside of the
screen stay as they were.
-/
theorem cga_window_on_tape (screen : Screen) (text : List (BitVec 32))
    (inside : position screen < 24 * 80) :
    ∃ screen', cgaputs text screen = .ok screen' ∧
      let tape := text.foldl Tape.put (Tape.ofScreen screen)
      let k := scrollCount text screen
      tape.above = k ∧
      position screen' < 24 * 80 ∧ tape.cursor = 80 * k + position screen' ∧
      (∀ i < 24 * 80, cell screen'.mem i = tape.cells (80 * k + i)) ∧
      (∀ i, 24 * 80 ≤ i → i < 25 * 80 →
        cell screen'.mem i = cell screen.mem i) ∧
      ∀ address, ¬ Within crt (2 * (25 * 80)) address →
        screen'.mem address = screen.mem address := by
  rcases (shown_ofScreen screen).cgaputs inside text with
    ⟨screen', called, inside', framed, shown, above⟩
  have counted : (text.foldl Tape.put (Tape.ofScreen screen)).above =
      scrollCount text screen := above.trans (Nat.zero_add _)
  refine ⟨screen', called, counted, inside', ?_, ?_, ?_, ?_⟩
  · rw [← counted]
    exact shown.cursor
  · rw [← counted]
    exact shown.cells
  · intro i low high
    exact framed.cell low high
  · intro address outside
    exact framed address fun rows => outside (Nat.lt_trans rows (by decide))

/-- The cursor at the end of row 23. -/
def sampleScreen : Screen where
  crtc := ⟨0, fun reg => if reg = 14 then 7 else if reg = 15 then 0x7f else 0⟩
  mem _ := 0

/-- A character at the end of row 23 scrolls; a backspace then takes the cursor
back to the end of the row above. -/
theorem cga_window_on_tape_last_cell :
    position sampleScreen = 1919 ∧
    ∃ screen', cgaputs [0x41, backspace] sampleScreen = .ok screen' ∧
      position screen' < 24 * 80 ∧
      ∀ i, 24 * 80 ≤ i → i < 25 * 80 →
        cell screen'.mem i = cell sampleScreen.mem i := by
  rcases cga_window_on_tape sampleScreen [0x41, backspace] (by decide) with
    ⟨screen', called, _, inside, _, _, last, _⟩
  exact ⟨by decide, screen', called, inside, last⟩

end Rt64.Kernel.Cga
