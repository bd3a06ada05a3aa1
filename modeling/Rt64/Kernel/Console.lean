import Rt64.Include.Access
import Rt64.Lib.Numeral

/-!
# Console output

`printint` builds the text of a number backwards in a buffer of 34 bytes and then
sends the buffer to the console from its end.  `vcprintf` scans a format and
takes an argument for each conversion in it.

A function is modelled by the bytes it sends to the console.  Accesses to the
buffer, to the format and to the strings are checked.
-/

namespace Rt64.Kernel.Console

open Rt64.Lib.ByteMemory
open Rt64.Lib.Numeral
open Rt64.Include.Defs
open Rt64.Include.Access

/-! ## Characters -/

abbrev backspace : BitVec 32 := 0x100

/-- `consputc`: the bytes it sends over the serial line.  The screen gets the
same character. -/
def consputc (c : BitVec 32) : List Byte :=
  if c = backspace then [0x08, 0x20, 0x08] else [c.setWidth 8]

/-- A `char`, which is signed, as an argument of `consputc`. -/
theorem consputc_signExtend (c : Byte) : consputc (c.signExtend 32) = [c] := by
  revert c
  decide

theorem consputc_setWidth (c : Byte) : consputc (c.setWidth 32) = [c] := by
  revert c
  decide

def isdigit (x : Byte) : Bool :=
  decide ((charByte '0').toInt ≤ x.toInt) && decide (x.toInt ≤ (charByte '9').toInt)

/-! ## Numbers -/

def digits : List Byte :=
  ascii "0123456789abcdef"

/-- `digits[n]`. -/
def digitAt (n : Nat) : Except Stop Byte :=
  match digits[n]? with
  | some c => .ok c
  | none => .error (.bounds n)

abbrev bufSize : Nat := 34

/-- `buf[i++] = c`.  The list has the bytes of the buffer that are in use, the
last one first, and `i` is its length. -/
def push (c : Byte) (buf : List Byte) : Except Stop (List Byte) :=
  if buf.length < bufSize then .ok (c :: buf) else .error (.bounds buf.length)

/-- The loop over the digits.  Each round takes a byte of the buffer. -/
def digitLoop (base : BitVec 64) : Nat → BitVec 64 → List Byte →
    Except Stop (List Byte)
  | 0, _, _ => .error (.halt .fuel)
  | fuel + 1, x, buf => do
      let c ← digitAt (x % base).toNat
      let buf ← push c buf
      let x := x / base
      if x ≠ 0 then digitLoop base fuel x buf else return buf

/-- The loop `while (i < len)`, with the number of rounds that are left. -/
def padLoop (pad : Byte) : Nat → List Byte → Except Stop (List Byte)
  | 0, buf => .ok buf
  | rounds + 1, buf => do
      let buf ← push pad buf
      padLoop pad rounds buf

/-- The part of `printint` that pads the digits and puts the sign. -/
def padSign (sign : Bool) (len : BitVec 32) (pad : Byte) (buf : List Byte) :
    Except Stop (List Byte) :=
  if len ≠ 0 ∧ buf.length < len.toInt then do
    require .printint "prefix != 0" (pad ≠ 0)
    let buf ← padLoop pad (len.toNat - buf.length) buf
    -- `buf[i - 1] = '-'`
    return if sign then charByte '-' :: buf.tail else buf
  else if sign then
    push (charByte '-') buf
  else
    return buf

/-- `printint`.  A buffer of 34 bytes is full after 34 rounds of the loop over
the digits, so that it makes no more than 35. -/
def printint (xx base : BitVec 64) (sign : Bool) (len : BitVec 32)
    (pad : Byte) : Except Stop (List Byte) := do
  require .printint "len <= 33" (len.toInt ≤ 33)
  let sign := sign && decide (xx.toInt < 0)
  let x := if sign then -xx else xx
  let buf ← digitLoop base (bufSize + 1) x []
  let buf ← padSign sign len pad buf
  return buf.flatMap fun c => consputc (c.signExtend 32)

def printptr (ptr : BitVec 64) : Except Stop (List Byte) :=
  printint ptr 16 false 16 (charByte '0')

/-! ## What `printint` prints -/

theorem require_of_holds (site : Site) (text : String) {condition : Prop}
    [Decidable condition] (holds : condition) :
    require site text condition = .ok () :=
  if_pos holds

/-- The console gets the bytes of the buffer as they are. -/
theorem flatMap_consputc (buf : List Byte) :
    (buf.flatMap fun c => consputc (c.signExtend 32)) = buf := by
  simp only [consputc_signExtend, List.flatMap_singleton']

theorem digitAt_eq {n : Nat} (bound : n < 16) : digitAt n = .ok (digitByte n) := by
  interval_cases n <;> rfl

theorem push_eq {c : Byte} {buf : List Byte} (room : buf.length < bufSize) :
    push c buf = .ok (c :: buf) :=
  if_pos room

section Digits

variable {base : Nat}

theorem toNat_base (radix : base ≤ 16) : (BitVec.ofNat 64 base).toNat = base := by
  rw [BitVec.toNat_ofNat]
  omega

/-- One round of the loop over the digits. -/
theorem digitLoop_succ (radix : 1 < base) (radix' : base ≤ 16) (fuel : Nat)
    (x : BitVec 64) {buf : List Byte} (room : buf.length < bufSize) :
    digitLoop (BitVec.ofNat 64 base) (fuel + 1) x buf =
      if x.toNat < base then .ok (digitByte (x.toNat % base) :: buf)
      else digitLoop (BitVec.ofNat 64 base) fuel (x / BitVec.ofNat 64 base)
        (digitByte (x.toNat % base) :: buf) := by
  have isBase := toNat_base radix'
  have digit : digitAt (x % BitVec.ofNat 64 base).toNat =
      .ok (digitByte (x.toNat % base)) := by
    rw [BitVec.toNat_umod, isBase]
    exact digitAt_eq (Nat.lt_of_lt_of_le (Nat.mod_lt _ (by omega)) radix')
  have last : x / BitVec.ofNat 64 base ≠ 0 ↔ ¬ x.toNat < base := by
    rw [← BitVec.toNat_ne_iff_ne, BitVec.toNat_udiv, isBase]
    show x.toNat / base ≠ 0 ↔ _
    rw [Ne, Nat.div_eq_zero_iff_lt (by omega)]
  rw [digitLoop, digit, bind_ok, push_eq room, bind_ok]
  split
  · rename_i small
    exact if_neg fun more => last.mp more small
  · rename_i large
    exact if_pos (last.mpr large)

/-- The loop leaves the numeral in front of what was in the buffer. -/
theorem digitLoop_eq (radix : 1 < base) (radix' : base ≤ 16) {fuel : Nat}
    {x : BitVec 64} {buf : List Byte}
    (room : (numeral base x.toNat).length + buf.length ≤ bufSize)
    (enough : (numeral base x.toNat).length ≤ fuel) :
    digitLoop (BitVec.ofNat 64 base) fuel x buf =
      .ok (numeral base x.toNat ++ buf) := by
  have positive := @length_numeral_pos base x.toNat
  induction fuel generalizing x buf with
  | zero => omega
  | succ fuel induction =>
      have quotient : (x / BitVec.ofNat 64 base).toNat = x.toNat / base := by
        rw [BitVec.toNat_udiv, toNat_base radix']
      rw [digitLoop_succ radix radix' fuel x (by omega)]
      rw [numeral_eq_if radix] at room enough ⊢
      split
      · rename_i small
        rw [Nat.mod_eq_of_lt small]
        rfl
      · rename_i large
        rw [if_neg large, List.length_append, List.length_singleton] at room enough
        rw [← quotient] at room enough ⊢
        rw [induction (by rw [List.length_cons]; omega) (by omega)
          (length_numeral_pos _), List.append_assoc]
        rfl

/-- The numerals of 64-bit numbers leave room for a sign. -/
theorem length_numeral_word (radix : 10 ≤ base) (x : BitVec 64) :
    (numeral base x.toNat).length ≤ 20 := by
  rw [length_numeral_le_iff (by omega) (by decide)]
  calc
    x.toNat < 2 ^ 64 := x.isLt
    _ < 10 ^ 20 := by decide
    _ ≤ base ^ 20 := Nat.pow_le_pow_left radix 20

end Digits

theorem padLoop_eq {pad : Byte} {rounds : Nat} {buf : List Byte}
    (room : rounds + buf.length ≤ bufSize) :
    padLoop pad rounds buf = .ok (List.replicate rounds pad ++ buf) := by
  induction rounds generalizing buf with
  | zero => rfl
  | succ rounds induction =>
      rw [padLoop, push_eq (by omega), bind_ok,
        induction (by rw [List.length_cons]; omega), List.replicate_succ',
        List.append_assoc]
      rfl

/-- A text in a field: a sign comes before the padding. -/
def field (negative : Bool) (width : Nat) (pad : Byte) (text : List Byte) :
    List Byte :=
  if negative then charByte '-' :: text.leftpad (width - 1) pad
  else text.leftpad width pad

/-- A text that fills its field is not padded. -/
theorem leftpad_of_le (pad : Byte) {text : List Byte} {width : Nat}
    (full : width ≤ text.length) : text.leftpad width pad = text := by
  rw [List.leftpad, Nat.sub_eq_zero_of_le full]
  rfl

theorem padSign_eq {text : List Byte} {len : BitVec 32} {negative : Bool}
    {pad : Byte} (narrow : len.toNat ≤ 33) (short : text.length ≤ 20)
    (padding : pad ≠ 0) :
    padSign negative len pad text =
      .ok (field negative len.toNat pad text) := by
  have isLen : len.toInt = len.toNat := BitVec.toInt_eq_toNat_of_lt (by omega)
  have full : bufSize = 34 := rfl
  unfold padSign
  by_cases wide : text.length < len.toNat
  · have nonzero : len ≠ 0 := by
      rintro rfl
      exact Nat.not_lt_zero _ wide
    have rounds : len.toNat - text.length =
        len.toNat - 1 - text.length + 1 := by omega
    rw [if_pos ⟨nonzero, by omega⟩, require_of_holds _ _ padding, bind_ok,
      padLoop_eq (by omega), bind_ok]
    cases negative with
    | false => rfl
    | true =>
        -- the sign takes the place of the last byte of padding
        rw [rounds]
        rfl
  · have notWide : ¬ (len ≠ 0 ∧ text.length < len.toInt) := by omega
    rw [if_neg notWide]
    cases negative with
    | false =>
        have whole := leftpad_of_le pad (Nat.not_lt.mp wide)
        show Except.ok text = Except.ok (text.leftpad len.toNat pad)
        rw [whole]
    | true =>
        have whole := leftpad_of_le pad
          (by omega : len.toNat - 1 ≤ text.length)
        show push (charByte '-') text =
          Except.ok (charByte '-' :: text.leftpad (len.toNat - 1) pad)
        rw [push_eq (by omega), whole]

/-- `printint` prints the numeral in a field of the given length. -/
theorem printint_eq {base : Nat} (radix : 10 ≤ base) (radix' : base ≤ 16)
    (xx : BitVec 64) (sign : Bool) {len : BitVec 32} (narrow : len.toNat ≤ 33)
    {pad : Byte} (padding : pad ≠ 0) :
    let negative := sign && decide (xx.toInt < 0)
    printint xx (BitVec.ofNat 64 base) sign len pad =
      .ok (field negative len.toNat pad
        (numeral base (if negative then -xx else xx).toNat)) := by
  intro negative
  have isLen : len.toInt = len.toNat := BitVec.toInt_eq_toNat_of_lt (by omega)
  have full : bufSize = 34 := rfl
  generalize isNumber : (if negative then -xx else xx) = x
  have short := length_numeral_word radix x
  have looped : digitLoop (BitVec.ofNat 64 base) (bufSize + 1) x [] =
      .ok (numeral base x.toNat) := by
    rw [digitLoop_eq (by omega) radix' (by rw [List.length_nil]; omega) (by omega),
      List.append_nil]
  unfold printint
  rw [require_of_holds _ _ (by omega), bind_ok]
  show (digitLoop (BitVec.ofNat 64 base) (bufSize + 1)
    (if negative then -xx else xx) [] >>= _) = _
  rw [isNumber, looped, bind_ok]
  show (padSign negative len pad (numeral base x.toNat) >>= _) = _
  rw [padSign_eq narrow short padding, bind_ok, flatMap_consputc]
  rfl

/-- The signed decimal numeral in a field. -/
def signedField (width : Nat) (value : Int) : List Byte :=
  field (decide (value < 0)) width (charByte ' ') (numeral 10 value.natAbs)

theorem printint_signed (xx : BitVec 64) {len : BitVec 32}
    (narrow : len.toNat ≤ 33) :
    printint xx 10 true len (charByte ' ') =
      .ok (signedField len.toNat xx.toInt) := by
  have magnitude :
      (if decide (xx.toInt < 0) = true then -xx else xx).toNat =
        xx.toInt.natAbs := by
    have bound := xx.isLt
    have same := BitVec.toInt_eq_toNat_cond xx
    split
    · rename_i negative
      have below := of_decide_eq_true negative
      rw [BitVec.toNat_neg]
      split at same <;> omega
    · rename_i positive
      have above : ¬ xx.toInt < 0 := fun below => positive (decide_eq_true below)
      split at same <;> omega
  have printed := @printint_eq 10 (by decide) (by decide) xx true len narrow
    (charByte ' ') (by decide)
  dsimp only at printed
  rw [Bool.true_and, magnitude] at printed
  exact printed

theorem printint_unsigned {base : Nat} (radix : 10 ≤ base) (radix' : base ≤ 16)
    (xx : BitVec 64) {len : BitVec 32} (narrow : len.toNat ≤ 33)
    {pad : Byte} (padding : pad ≠ 0) :
    printint xx (BitVec.ofNat 64 base) false len pad =
      .ok ((numeral base xx.toNat).leftpad len.toNat pad) :=
  printint_eq radix radix' xx false narrow padding

/-! ## Formats -/

/-- `"(null)"`. -/
def nullText : List Byte :=
  ascii "(null)"

/-- The loop of `%s`. -/
def putString (view : View) : Nat → Addr → Except Stop (List Byte)
  | 0, _ => .error (.halt .fuel)
  | fuel + 1, s => do
      let c ← fetch view s
      if c ≠ 0 then
        return consputc (c.signExtend 32) ++ (← putString view fuel (s + 1))
      else
        return []

/-- `fmt[i]`.  The index is a number, since no format comes near to `2 ^ 31`
bytes. -/
def charAt (view : View) (fmt : Addr) (i : Nat) : Except Stop Byte :=
  fetch view (fmt + BitVec.ofNat 64 i)

/-- The loop over the digits of a width. -/
def widthLoop (view : View) (fmt : Addr) : Nat → BitVec 32 → Nat →
    Except Stop (BitVec 32 × Nat)
  | 0, _, _ => .error (.halt .fuel)
  | fuel + 1, minwidth, i => do
      let c ← charAt view fmt i
      if c ≠ 0 ∧ isdigit c = true then
        widthLoop view fmt fuel
          (minwidth * 10 + c.signExtend 32 - (charByte '0').signExtend 32) (i + 1)
      else
        return (minwidth, i)

/-- The arguments after the format, each in a slot of eight bytes. -/
abbrev Args : Type := Nat → BitVec 64

/-- `va_arg(ap, int)`, converted to `long`. -/
def intArg (arg : BitVec 64) : BitVec 64 :=
  (arg.setWidth 32).signExtend 64

/-- The `switch` on the character of a conversion: what it prints, and the next
argument. -/
def convert (view : View) (fuel : Nat) (args : Args) (c : Byte)
    (minwidth : BitVec 32) (ap : Nat) : Except Stop (List Byte × Nat) :=
  if c = charByte 'd' then do
    return (← printint (intArg (args ap)) 10 true minwidth (charByte ' '), ap + 1)
  else if c = charByte 'l' then do
    return (← printint (args ap) 10 true minwidth (charByte ' '), ap + 1)
  else if c = charByte 'x' then do
    return (← printint (intArg (args ap)) 16 false minwidth (charByte ' '), ap + 1)
  else if c = charByte 'y' then do
    return (← printint (args ap) 16 false minwidth (charByte ' '), ap + 1)
  else if c = charByte 'p' then do
    return (← printptr (args ap), ap + 1)
  else if c = charByte 's' then do
    if args ap = 0 then
      return (nullText, ap + 1)
    else
      return (← putString view fuel (args ap), ap + 1)
  else if c = charByte '%' then
    return (consputc (c.setWidth 32), ap)
  else
    return (consputc ((charByte '%').setWidth 32) ++ consputc (c.setWidth 32), ap)

/-- The loop of `vcprintf`: what is printed from `fmt[i]` on, and the next
argument at the end. -/
def formatLoop (view : View) (fmt : Addr) (args : Args) : Nat → Nat → Nat →
    Except Stop (List Byte × Nat)
  | 0, _, _ => .error (.halt .fuel)
  | fuel + 1, i, ap => do
      let c ← charAt view fmt i
      if c = 0 then
        return ([], ap)
      else if c ≠ charByte '%' then
        let (rest, ap) ← formatLoop view fmt args fuel (i + 1) ap
        return (consputc (c.setWidth 32) ++ rest, ap)
      else
        let (minwidth, i) ← widthLoop view fmt fuel 0 (i + 1)
        let c ← charAt view fmt i
        if c = 0 then
          return ([], ap)
        else
          let (out, ap) ← convert view fuel args c minwidth ap
          let (rest, ap) ← formatLoop view fmt args fuel (i + 1) ap
          return (out ++ rest, ap)

def vcprintf (view : View) (fuel : Nat) (fmt : Addr) (args : Args) :
    Except Stop (List Byte × Nat) := do
  require .vcprintf "null fmt" (fmt ≠ 0)
  formatLoop view fmt args fuel 0 0

/-! ## Strings in memory -/

/-- A string and the zero byte after it can be read from the address on. -/
def StringAt (view : View) : Addr → List Byte → Prop
  | s, [] => view s = some 0
  | s, c :: text => c ≠ 0 ∧ view s = some c ∧ StringAt view (s + 1) text

instance StringAt.decidable (view : View) :
    (s : Addr) → (text : List Byte) → Decidable (StringAt view s text)
  | s, [] => inferInstanceAs (Decidable (view s = some 0))
  | s, _ :: text =>
      have := StringAt.decidable view (s + 1) text
      inferInstanceAs (Decidable (_ ∧ _ ∧ _))

theorem StringAt.ne_zero {view : View} {s : Addr} {text : List Byte}
    (stored : StringAt view s text) : ∀ c ∈ text, c ≠ 0 := by
  induction text generalizing s with
  | nil =>
      intro c inside
      cases inside
  | cons first text induction =>
      intro c inside
      rcases List.mem_cons.mp inside with rfl | later
      · exact stored.1
      · exact induction stored.2.2 c later

/-- The rest of a string after its first bytes. -/
theorem StringAt.drop {view : View} {fmt : Addr} {i : Nat}
    {front text : List Byte}
    (stored : StringAt view (fmt + BitVec.ofNat 64 i) (front ++ text)) :
    StringAt view (fmt + BitVec.ofNat 64 (i + front.length)) text := by
  induction front generalizing i with
  | nil => exact stored
  | cons c front induction =>
      have next : fmt + BitVec.ofNat 64 i + 1 = fmt + BitVec.ofNat 64 (i + 1) := by
        rw [BitVec.add_assoc, BitVec.ofNat_add]
        rfl
      have rest := stored.2.2
      rw [next] at rest
      rw [List.length_cons, Nat.add_comm front.length, ← Nat.add_assoc]
      exact induction rest

theorem putString_eq {view : View} {s : Addr} {text : List Byte}
    (stored : StringAt view s text) {fuel : Nat} (enough : text.length < fuel) :
    putString view fuel s = .ok text := by
  induction text generalizing s fuel with
  | nil =>
      rcases fuel with _ | fuel
      · omega
      · have last : fetch view s = .ok 0 := by
          rw [fetch, show view s = some 0 from stored]
        rw [putString, last]
        rfl
  | cons c text induction =>
      rcases stored with ⟨nonzero, first, rest⟩
      rcases fuel with _ | fuel
      · omega
      · rw [List.length_cons] at enough
        have read : fetch view s = .ok c := by rw [fetch, first]
        rw [putString, read, bind_ok, if_pos nonzero,
          induction rest (by omega), bind_ok, consputc_signExtend]
        rfl

theorem stringAt_of_putString {view : View} {fuel : Nat} {s : Addr}
    {text : List Byte} (read : putString view fuel s = .ok text) :
    StringAt view s text := by
  induction fuel generalizing s text with
  | zero => cases read
  | succ fuel induction =>
      rcases exists_of_bind_ok read with ⟨c, fetched, read⟩
      have first := view_of_fetch fetched
      split at read
      · rename_i nonzero
        rcases exists_of_bind_ok read with ⟨rest, read', same⟩
        rw [consputc_signExtend] at same
        cases same
        exact ⟨nonzero, first, induction read'⟩
      · rename_i zero
        cases read
        exact first.trans (congrArg some (not_not.mp zero))

end Rt64.Kernel.Console
