import Rt64.Kernel.Console
import Rt64.Kernel.Trap

/-!
# The formats of the console

A format is a sequence of literal characters and conversions, and it may end in
a conversion that is not finished.  Every string without a zero byte is the text
of a format.  `vcprintf` prints a format token by token, and takes one argument
for each of the conversions that have one.
-/

namespace Rt64.Kernel.ConsoleFormat

open Rt64.Lib.ByteMemory
open Rt64.Lib.Numeral
open Rt64.Include.Defs
open Rt64.Include.Access
open Rt64.Kernel.Console

/-! ## The grammar -/

/-- The characters that `vcprintf` has a case for. -/
def known : List Byte :=
  ['d', 'l', 'x', 'y', 'p', 's', '%'].map charByte

/-- What a conversion ends in. -/
inductive Kind where
  | d
  | l
  | x
  | y
  | p
  | s
  | percent
  | other (c : Byte) (unknown : c ∉ known ∧ c ≠ 0 ∧ isdigit c = false)

namespace Kind

def char : Kind → Byte
  | d => charByte 'd'
  | l => charByte 'l'
  | x => charByte 'x'
  | y => charByte 'y'
  | p => charByte 'p'
  | s => charByte 's'
  | percent => charByte '%'
  | other c _ => c

/-- The number of arguments that the conversion takes. -/
def takes : Kind → Nat
  | percent | other _ _ => 0
  | _ => 1

/-- The conversions of integers, which have a field width. -/
def isInteger : Kind → Bool
  | d | l | x | y => true
  | _ => false

theorem char_ne_zero (kind : Kind) : kind.char ≠ 0 := by
  cases kind with
  | other c unknown => exact unknown.2.1
  | _ => decide

theorem isdigit_char (kind : Kind) : isdigit kind.char = false := by
  cases kind with
  | other c unknown => exact unknown.2.2
  | _ => decide

end Kind

/-- A character that can end a conversion does so. -/
theorem exists_kind {c : Byte} (nonzero : c ≠ 0) (notDigit : isdigit c = false) :
    ∃ kind : Kind, kind.char = c := by
  by_cases unknown : c ∉ known
  · exact ⟨.other c ⟨unknown, nonzero, notDigit⟩, rfl⟩
  · rw [not_not] at unknown
    simp only [known, List.map_cons, List.map_nil, List.mem_cons,
      List.not_mem_nil, or_false] at unknown
    rcases unknown with rfl | rfl | rfl | rfl | rfl | rfl | rfl
    · exact ⟨.d, rfl⟩
    · exact ⟨.l, rfl⟩
    · exact ⟨.x, rfl⟩
    · exact ⟨.y, rfl⟩
    · exact ⟨.p, rfl⟩
    · exact ⟨.s, rfl⟩
    · exact ⟨.percent, rfl⟩

/-- The digits of a width. -/
abbrev Width : Type := List (Fin 10)

def Width.text (width : Width) : List Byte :=
  width.map fun (digit : Fin 10) => digitByte digit

/-- The number that a width stands for, after one that has been read. -/
def Width.valueFrom (width : Width) (start : Nat) : Nat :=
  width.foldl (fun value (digit : Fin 10) => value * 10 + digit) start

def Width.value (width : Width) : Nat :=
  width.valueFrom 0

inductive Token where
  | literal (c : Byte) (plain : c ≠ 0 ∧ c ≠ charByte '%')
  | conversion (width : Width) (kind : Kind)

namespace Token

def text : Token → List Byte
  | literal c _ => [c]
  | conversion width kind => charByte '%' :: width.text ++ [kind.char]

def takes : Token → Nat
  | literal _ _ => 0
  | conversion _ kind => kind.takes

end Token

theorem Token.length_conversion (width : Width) (kind : Kind) :
    (Token.conversion width kind).text.length = 1 + width.length + 1 := by
  rw [Token.text, List.length_append, List.length_cons, Width.text,
    List.length_map, List.length_singleton, Nat.add_comm 1]

structure Format where
  tokens : List Token
  /-- The width of a conversion at the end that has no character. -/
  unfinished : Option Width

def Format.text (format : Format) : List Byte :=
  format.tokens.flatMap Token.text ++
    match format.unfinished with
    | none => []
    | some width => charByte '%' :: width.text

theorem isdigit_digitByte (digit : Fin 10) : isdigit (digitByte digit) = true := by
  revert digit
  decide

theorem digitByte_ne_zero (digit : Fin 10) : digitByte digit ≠ 0 := by
  revert digit
  decide

theorem exists_digit {c : Byte} (digit : isdigit c = true) :
    ∃ d : Fin 10, digitByte d = c := by
  revert c
  decide

/-- What does not go on with a digit. -/
def EndsWidth : List Byte → Prop
  | [] => True
  | c :: _ => isdigit c = false

/-- The digits that a text starts with are a width. -/
theorem exists_width (text : List Byte) :
    ∃ (width : Width) (rest : List Byte),
      text = width.text ++ rest ∧ EndsWidth rest := by
  induction text with
  | nil => exact ⟨[], [], rfl, trivial⟩
  | cons c text induction =>
      by_cases digit : isdigit c = true
      · rcases exists_digit digit with ⟨d, rfl⟩
        rcases induction with ⟨width, rest, rfl, ends⟩
        exact ⟨d :: width, rest, rfl, ends⟩
      · exact ⟨[], c :: text, rfl, Bool.eq_false_iff.mpr digit⟩

theorem Format.text_cons (token : Token) (tokens : List Token)
    (unfinished : Option Width) :
    Format.text ⟨token :: tokens, unfinished⟩ =
      token.text ++ Format.text ⟨tokens, unfinished⟩ :=
  List.append_assoc _ _ _

/-- Every string without a zero byte is the text of a format. -/
theorem exists_format (text : List Byte) (nonzero : ∀ c ∈ text, c ≠ 0) :
    ∃ format : Format, format.text = text := by
  induction size : text.length using Nat.strong_induction_on generalizing text with
  | h size' induction =>
      rcases text with _ | ⟨c, text⟩
      · exact ⟨⟨[], none⟩, rfl⟩
      · have first := nonzero c List.mem_cons_self
        have others : ∀ c' ∈ text, c' ≠ 0 := fun c' inside =>
          nonzero c' (List.mem_cons_of_mem c inside)
        rw [List.length_cons] at size
        by_cases literal : c ≠ charByte '%'
        · rcases induction text.length (by omega) text others rfl with
            ⟨⟨tokens, unfinished⟩, rfl⟩
          exact ⟨⟨.literal c ⟨first, literal⟩ :: tokens, unfinished⟩,
            Format.text_cons _ tokens unfinished⟩
        · rw [not_not] at literal
          rcases exists_width text with ⟨width, rest, rfl, ends⟩
          rw [literal]
          rcases rest with _ | ⟨c', rest⟩
          · refine ⟨⟨[], some width⟩, ?_⟩
            rw [List.append_nil]
            rfl
          · rw [List.length_append, List.length_cons] at size
            rcases exists_kind (others c' (List.mem_append_right _
              List.mem_cons_self)) ends with ⟨kind, rfl⟩
            have fewer : ∀ c ∈ rest, c ≠ 0 := fun c inside =>
              others c (List.mem_append_right _ (List.mem_cons_of_mem _ inside))
            rcases induction rest.length (by omega) rest fewer rfl with
              ⟨⟨tokens, unfinished⟩, rfl⟩
            refine ⟨⟨.conversion width kind :: tokens, unfinished⟩, ?_⟩
            rw [Format.text_cons, Token.text, List.append_assoc]
            rfl

/-! ## The rendering -/

section Rendering

variable (args : Args) (strings : Nat → List Byte)

/-- What a conversion prints with its argument in the slot `ap`. -/
def Kind.render (width ap : Nat) : Kind → List Byte
  | .d => signedField width (intArg (args ap)).toInt
  | .l => signedField width (args ap).toInt
  | .x => (numeral 16 (intArg (args ap)).toNat).leftpad width (charByte ' ')
  | .y => (numeral 16 (args ap).toNat).leftpad width (charByte ' ')
  | .p => (numeral 16 (args ap).toNat).leftpad 16 (charByte '0')
  | .s => strings ap
  | .percent => [charByte '%']
  | .other c _ => [charByte '%', c]

def Token.render (ap : Nat) : Token → List Byte
  | .literal c _ => [c]
  | .conversion width kind => kind.render args strings width.value ap

/-- The tokens in order, each with the arguments that come after those taken
before. -/
def render : List Token → Nat → List Byte
  | [], _ => []
  | token :: tokens, ap =>
      token.render args strings ap ++ render tokens (ap + token.takes)

/-- The number of arguments that the tokens take. -/
def taken (tokens : List Token) : Nat :=
  (tokens.map Token.takes).sum

theorem taken_cons (token : Token) (tokens : List Token) :
    taken (token :: tokens) = token.takes + taken tokens := by
  rw [taken, List.map_cons, List.sum_cons]
  rfl

variable (view : View)

/-- The argument is null, or a string that can be read. -/
def StringArg (ap : Nat) : Prop :=
  (args ap = 0 ∧ strings ap = nullText) ∨
    (args ap ≠ 0 ∧ StringAt view (args ap) (strings ap))

/-- A width that an integer may have, and a string where one is printed. -/
def Kind.Fits (width ap : Nat) (kind : Kind) : Prop :=
  (kind.isInteger = true → width ≤ 33) ∧
    (kind = .s → StringArg args strings view ap)

def Token.Fits (ap : Nat) : Token → Prop
  | .literal _ _ => True
  | .conversion width kind => kind.Fits args strings view width.value ap

/-- The arguments match the tokens in order. -/
def Matches : List Token → Nat → Prop
  | [], _ => True
  | token :: tokens, ap =>
      token.Fits args strings view ap ∧ Matches tokens (ap + token.takes)

theorem render_append (front back : List Token) (ap : Nat) :
    render args strings (front ++ back) ap =
      render args strings front ap ++
        render args strings back (ap + taken front) := by
  induction front generalizing ap with
  | nil => rfl
  | cons token front induction =>
      rw [List.cons_append, render, render, induction, taken_cons,
        ← Nat.add_assoc, List.append_assoc]

/-- The tokens of a text without conversions. -/
def literals (text : List Byte)
    (plain : ∀ c ∈ text, c ≠ 0 ∧ c ≠ charByte '%') : List Token :=
  text.pmap Token.literal plain

theorem taken_literals {text : List Byte}
    (plain : ∀ c ∈ text, c ≠ 0 ∧ c ≠ charByte '%') :
    taken (literals text plain) = 0 := by
  induction text with
  | nil => rfl
  | cons c text induction =>
      rw [literals, List.pmap_cons, taken_cons]
      exact (Nat.zero_add _).trans (induction _)

theorem render_literals {text : List Byte}
    (plain : ∀ c ∈ text, c ≠ 0 ∧ c ≠ charByte '%') (ap : Nat) :
    render args strings (literals text plain) ap = text := by
  induction text with
  | nil => rfl
  | cons c text induction =>
      rw [literals, List.pmap_cons, render]
      exact congrArg (c :: ·) (induction _)

/-- A literal, or an integer with a width that it may have. -/
def Token.isNumeric : Token → Bool
  | .literal _ _ => true
  | .conversion width kind => kind.isInteger && decide (width.value ≤ 33)

/-- Integers match all arguments. -/
theorem matches_of_isNumeric {tokens : List Token}
    (numeric : ∀ token ∈ tokens, token.isNumeric = true) (ap : Nat) :
    Matches args strings view tokens ap := by
  induction tokens generalizing ap with
  | nil => trivial
  | cons token tokens induction =>
      refine ⟨?_, induction (fun next inside =>
        numeric next (List.mem_cons_of_mem _ inside)) _⟩
      have first := numeric token List.mem_cons_self
      cases token with
      | literal c plain => trivial
      | conversion width kind =>
          rw [Token.isNumeric, Bool.and_eq_true, decide_eq_true_iff] at first
          refine ⟨fun _ => first.2, ?_⟩
          rintro rfl
          cases first.1

end Rendering

/-! ## The scanner -/

section Scanner

variable {args : Args} {strings : Nat → List Byte} {view : View} {fmt : Addr}

theorem charAt_eq {i : Nat} {c : Byte} {text : List Byte}
    (stored : StringAt view (fmt + BitVec.ofNat 64 i) (c :: text)) :
    charAt view fmt i = .ok c := by
  rw [charAt, fetch, stored.2.1]

theorem charAt_end {i : Nat}
    (stored : StringAt view (fmt + BitVec.ofNat 64 i) []) :
    charAt view fmt i = .ok 0 := by
  rw [charAt, fetch, show view (fmt + BitVec.ofNat 64 i) = some 0 from stored]

/-- The parts of a conversion in a string. -/
theorem stringAt_conversion {i : Nat} {width : Width} {kind : Kind}
    {text : List Byte}
    (stored : StringAt view (fmt + BitVec.ofNat 64 i)
      ((Token.conversion width kind).text ++ text)) :
    charAt view fmt i = .ok (charByte '%') ∧
    StringAt view (fmt + BitVec.ofNat 64 (i + 1))
      (width.text ++ kind.char :: text) ∧
    charAt view fmt (i + 1 + width.length) = .ok kind.char := by
  have shape : (Token.conversion width kind).text ++ text =
      charByte '%' :: (width.text ++ kind.char :: text) := by
    rw [Token.text, List.append_assoc]
    rfl
  rw [shape] at stored
  have inner : StringAt view (fmt + BitVec.ofNat 64 (i + 1))
      (width.text ++ kind.char :: text) :=
    @StringAt.drop view fmt i [charByte '%'] _ stored
  have final := inner.drop
  rw [Width.text, List.length_map] at final
  exact ⟨charAt_eq stored, inner, charAt_eq final⟩

/-- One digit of a width. -/
theorem width_step (value : Nat) (digit : Fin 10) :
    BitVec.ofNat 32 value * 10 + (digitByte digit).signExtend 32 -
        (charByte '0').signExtend 32 = BitVec.ofNat 32 (value * 10 + digit) := by
  have byte : (digitByte digit).signExtend 32 =
      BitVec.ofNat 32 digit + (charByte '0').signExtend 32 := by
    revert digit
    decide
  rw [byte, ← BitVec.add_assoc, BitVec.add_sub_cancel, BitVec.ofNat_add,
    BitVec.ofNat_mul]
  rfl

/-- The loop over a width comes to its end with the number it stands for. -/
theorem widthLoop_eq {width : Width} {rest : List Byte} (ends : EndsWidth rest)
    {i value fuel : Nat}
    (stored : StringAt view (fmt + BitVec.ofNat 64 i) (width.text ++ rest))
    (enough : width.length < fuel) :
    widthLoop view fmt fuel (BitVec.ofNat 32 value) i =
      .ok (BitVec.ofNat 32 (width.valueFrom value), i + width.length) := by
  induction width generalizing i value fuel with
  | nil =>
      rcases fuel with _ | fuel
      · omega
      · rw [widthLoop]
        rcases rest with _ | ⟨c, rest⟩
        · rw [charAt_end stored]
          rfl
        · have notDigit : ¬ (c ≠ 0 ∧ isdigit c = true) := by
            intro both
            rw [show isdigit c = false from ends] at both
            exact Bool.false_ne_true both.2
          rw [charAt_eq stored, bind_ok, if_neg notDigit]
          rfl
  | cons digit width induction =>
      rcases fuel with _ | fuel
      · omega
      · rw [List.length_cons] at enough
        have tail : StringAt view (fmt + BitVec.ofNat 64 (i + 1))
            (Width.text width ++ rest) :=
          @StringAt.drop view fmt i [digitByte digit] _ stored
        rw [widthLoop, charAt_eq stored, bind_ok,
          if_pos ⟨digitByte_ne_zero digit, isdigit_digitByte digit⟩, width_step,
          induction tail (by omega), List.length_cons]
        rw [Nat.add_assoc, Nat.add_comm 1]
        rfl

theorem toNat_width {width : Nat} (narrow : width ≤ 33) :
    (BitVec.ofNat 32 width).toNat = width := by
  rw [BitVec.toNat_ofNat]
  omega

theorem printint_decimal (xx : BitVec 64) {width : Nat} (narrow : width ≤ 33) :
    printint xx 10 true (BitVec.ofNat 32 width) (charByte ' ') =
      .ok (signedField width xx.toInt) := by
  have isWidth := toNat_width narrow
  have printed := printint_signed xx (isWidth.symm ▸ narrow)
  rwa [isWidth] at printed

theorem printint_hex (xx : BitVec 64) {width : Nat} (narrow : width ≤ 33)
    {pad : Byte} (padding : pad ≠ 0) :
    printint xx 16 false (BitVec.ofNat 32 width) pad =
      .ok ((numeral 16 xx.toNat).leftpad width pad) := by
  have isWidth := toNat_width narrow
  have printed := @printint_unsigned 16 (by decide) (by decide) xx
    (BitVec.ofNat 32 width) (isWidth.symm ▸ narrow) pad padding
  rwa [isWidth] at printed

/-- One conversion prints its rendering and takes its argument. -/
theorem convert_eq {kind : Kind} {width ap fuel : Nat}
    (fits : kind.Fits args strings view width ap)
    (enough : (strings ap).length < fuel) :
    convert view fuel args kind.char (BitVec.ofNat 32 width) ap =
      .ok (kind.render args strings width ap, ap + kind.takes) := by
  cases kind with
  | d =>
      show (printint (intArg (args ap)) 10 true _ _ >>= _) = _
      rw [printint_decimal _ (fits.1 rfl)]
      rfl
  | l =>
      show (printint (args ap) 10 true _ _ >>= _) = _
      rw [printint_decimal _ (fits.1 rfl)]
      rfl
  | x =>
      show (printint (intArg (args ap)) 16 false _ _ >>= _) = _
      rw [printint_hex _ (fits.1 rfl) (by decide)]
      rfl
  | y =>
      show (printint (args ap) 16 false _ _ >>= _) = _
      rw [printint_hex _ (fits.1 rfl) (by decide)]
      rfl
  | p =>
      have printed := printint_hex (args ap) (by decide : 16 ≤ 33)
        (by decide : charByte '0' ≠ 0)
      show (printint (args ap) 16 false (BitVec.ofNat 32 16) _ >>= _) = _
      rw [printed]
      rfl
  | s =>
      show (if args ap = 0 then _ else _ : Except Stop (List Byte × Nat)) = _
      rcases fits.2 rfl with ⟨null, isNull⟩ | ⟨nonnull, stored⟩
      · rw [if_pos null, Kind.render, isNull]
        rfl
      · rw [if_neg nonnull, putString_eq stored enough]
        rfl
  | percent => rfl
  | other c unknown =>
      have none := unknown.1
      simp only [known, List.map_cons, List.map_nil, List.mem_cons,
        List.not_mem_nil, or_false, not_or] at none
      rcases none with ⟨notD, notL, notX, notY, notP, notS, notPercent⟩
      rw [Kind.char, convert, if_neg notD, if_neg notL, if_neg notX,
        if_neg notY, if_neg notP, if_neg notS, if_neg notPercent,
        consputc_setWidth, consputc_setWidth]
      rfl

/-- A literal character. -/
theorem formatLoop_literal {fuel i ap : Nat} {c : Byte}
    (plain : c ≠ 0 ∧ c ≠ charByte '%') (read : charAt view fmt i = .ok c)
    {rest : List Byte × Nat}
    (tail : formatLoop view fmt args fuel (i + 1) ap = .ok rest) :
    formatLoop view fmt args (fuel + 1) i ap = .ok (c :: rest.1, rest.2) := by
  rw [formatLoop, read, bind_ok, if_neg plain.1, if_pos plain.2, tail, bind_ok,
    consputc_setWidth]
  rfl

/-- A conversion that is not finished. -/
theorem formatLoop_unfinished {fuel i ap : Nat} {width : BitVec 32} {j : Nat}
    (read : charAt view fmt i = .ok (charByte '%'))
    (scanned : widthLoop view fmt fuel 0 (i + 1) = .ok (width, j))
    (atEnd : charAt view fmt j = .ok 0) :
    formatLoop view fmt args (fuel + 1) i ap = .ok ([], ap) := by
  rw [formatLoop, read, bind_ok, if_neg (by decide), if_neg (by decide), scanned,
    bind_ok]
  show (charAt view fmt j >>= _) = _
  rw [atEnd]
  rfl

/-- A conversion. -/
theorem formatLoop_conversion {fuel i ap : Nat} {width : BitVec 32} {j : Nat}
    {c : Byte} (nonzero : c ≠ 0)
    (read : charAt view fmt i = .ok (charByte '%'))
    (scanned : widthLoop view fmt fuel 0 (i + 1) = .ok (width, j))
    (final : charAt view fmt j = .ok c) {out rest : List Byte × Nat}
    (converted : convert view fuel args c width ap = .ok out)
    (tail : formatLoop view fmt args fuel (j + 1) out.2 = .ok rest) :
    formatLoop view fmt args (fuel + 1) i ap = .ok (out.1 ++ rest.1, rest.2) := by
  rw [formatLoop, read, bind_ok, if_neg (by decide), if_neg (by decide), scanned,
    bind_ok]
  show (charAt view fmt j >>= _) = _
  rw [final, bind_ok, if_neg nonzero, converted, bind_ok]
  show (formatLoop view fmt args fuel (j + 1) out.2 >>= _) = _
  rw [tail]
  rfl

/-- The end of a format, which may be in a conversion. -/
theorem formatLoop_end {unfinished : Option Width} {i ap : Nat}
    (stored : StringAt view (fmt + BitVec.ofNat 64 i)
      (Format.text ⟨[], unfinished⟩)) :
    ∃ bound, ∀ fuel ≥ bound,
      formatLoop view fmt args fuel i ap = .ok ([], ap) := by
  cases unfinished with
  | none =>
      refine ⟨1, fun fuel enough => ?_⟩
      rcases fuel with _ | fuel
      · omega
      · rw [formatLoop, charAt_end stored]
        rfl
  | some width =>
      refine ⟨width.length + 2, fun fuel enough => ?_⟩
      rcases fuel with _ | fuel
      · omega
      · have tail : StringAt view (fmt + BitVec.ofNat 64 (i + 1))
            (width.text ++ []) := by
          rw [List.append_nil]
          exact @StringAt.drop view fmt i [charByte '%'] _ stored
        have ending := tail.drop
        rw [Width.text, List.length_map] at ending
        exact formatLoop_unfinished (charAt_eq stored)
          (@widthLoop_eq view fmt width [] trivial (i + 1) 0 fuel tail (by omega))
          (charAt_end ending)

/-- The loop prints the tokens from a place in the format on. -/
theorem formatLoop_eq {tokens : List Token} {unfinished : Option Width}
    {i ap : Nat} (matching : Matches args strings view tokens ap)
    (stored : StringAt view (fmt + BitVec.ofNat 64 i)
      (Format.text ⟨tokens, unfinished⟩)) :
    ∃ bound, ∀ fuel ≥ bound, formatLoop view fmt args fuel i ap =
      .ok (render args strings tokens ap, ap + taken tokens) := by
  induction tokens generalizing i ap with
  | nil => exact formatLoop_end stored
  | cons token tokens induction =>
      rw [Format.text_cons] at stored
      rcases induction matching.2 stored.drop with ⟨bound, rest⟩
      cases token with
      | literal c plain =>
          refine ⟨bound + 1, fun fuel enough => ?_⟩
          rcases fuel with _ | fuel
          · omega
          · have tail : formatLoop view fmt args fuel (i + 1) ap =
                .ok (render args strings tokens ap, ap + taken tokens) :=
              rest fuel (by omega)
            rw [formatLoop_literal plain (charAt_eq stored) tail, taken_cons,
              ← Nat.add_assoc]
            rfl
      | conversion width kind =>
          refine ⟨bound + width.length + (strings ap).length + 2,
            fun fuel enough => ?_⟩
          rcases fuel with _ | fuel
          · omega
          · rcases stringAt_conversion stored with ⟨start, inner, final⟩
            have scanned := @widthLoop_eq view fmt width
              (kind.char :: Format.text ⟨tokens, unfinished⟩) kind.isdigit_char
              (i + 1) 0 fuel inner (by omega)
            rw [Token.length_conversion, ← Nat.add_assoc, ← Nat.add_assoc] at rest
            rw [formatLoop_conversion kind.char_ne_zero start scanned final
              (convert_eq matching.1 (by omega)) (rest fuel (by omega)),
              taken_cons, ← Nat.add_assoc]
            rfl

/-- With enough fuel, `vcprintf` prints the bytes and takes the arguments up to
the given slot. -/
def Prints (view : View) (fmt : Addr) (args : Args) (out : List Byte)
    (ap : Nat) : Prop :=
  ∃ bound, ∀ fuel ≥ bound, vcprintf view fuel fmt args = .ok (out, ap)

theorem Prints.unique {out out' : List Byte} {ap ap' : Nat}
    (prints : Prints view fmt args out ap)
    (prints' : Prints view fmt args out' ap') : out = out' := by
  rcases prints with ⟨bound, printed⟩
  rcases prints' with ⟨bound', printed'⟩
  have first := printed (max bound bound') (Nat.le_max_left _ _)
  rw [printed' (max bound bound') (Nat.le_max_right _ _)] at first
  exact (congrArg Prod.fst (Except.ok.inj first)).symm

/-- A format is printed as the rendering of its tokens. -/
theorem prints_format {format : Format} (nonnull : fmt ≠ 0)
    (matching : Matches args strings view format.tokens 0)
    (stored : StringAt view fmt format.text) :
    Prints view fmt args (render args strings format.tokens 0)
      (taken format.tokens) := by
  have start : fmt + BitVec.ofNat 64 0 = fmt := BitVec.add_zero fmt
  have stored' : StringAt view (fmt + BitVec.ofNat 64 0)
      (Format.text ⟨format.tokens, format.unfinished⟩) := by
    rw [start]
    exact stored
  rcases formatLoop_eq matching stored' with ⟨bound, printed⟩
  refine ⟨bound, fun fuel enough => ?_⟩
  rw [vcprintf, require_of_holds _ _ nonnull, bind_ok, printed fuel enough,
    Nat.zero_add]

end Scanner

/-- A format that is one conversion. -/
theorem prints_conversion {view : View} {fmt : Addr} {args : Args}
    {strings : Nat → List Byte} {width : Width} {kind : Kind}
    (nonnull : fmt ≠ 0) (fits : kind.Fits args strings view width.value 0)
    (stored : StringAt view fmt (Token.conversion width kind).text) :
    Prints view fmt args (kind.render args strings width.value 0) kind.takes := by
  have single : Format.text ⟨[.conversion width kind], none⟩ =
      (Token.conversion width kind).text :=
    (Format.text_cons _ [] none).trans (List.append_nil _)
  have printed := @prints_format args strings view fmt
    ⟨[.conversion width kind], none⟩ nonnull ⟨fits, trivial⟩
    (single.symm ▸ stored)
  rw [render, render, List.append_nil] at printed
  exact printed

/-- The system call `print` puts its string on the console as `vcprintf` does. -/
theorem prints_cprintfString {view : View} {fmt s : Addr} {fuel : Nat}
    {out : List Byte} (nonnull : fmt ≠ 0)
    (stored : StringAt view fmt (ascii "%s"))
    (read : Trap.cprintfString view fuel s = .ok out) :
    Prints view fmt (fun _ => s) out 1 := by
  have argument : StringArg (fun _ => s) (fun _ => out) view 0 := by
    unfold Trap.cprintfString at read
    split at read
    · rename_i null
      cases read
      exact Or.inl ⟨null, rfl⟩
    · rename_i nonnull'
      exact Or.inr ⟨nonnull', stringAt_of_putString (mapError_eq_ok.mp read)⟩
  exact @prints_conversion view fmt (fun _ => s) (fun _ => out) [] .s nonnull
    ⟨nofun, fun _ => argument⟩ stored

/-! ## Results -/

/-- The bytes of a text at `0x1000`, and nothing else. -/
def textView (text : String) : View :=
  fun address => (ascii text ++ [0])[(address - 0x1000).toNat]?

/--
Every string is the text of a format.  For every format and all arguments that
match it, integer widths being at most 33, `vcprintf` comes to its end, prints
the renderings of the tokens in order, and takes one argument for each conversion
that has one.  A conversion that is not finished prints nothing.

Nothing is asked of the memory besides the format with its terminator and the
strings that are printed, so no byte after the terminator is read.
-/
theorem format_interpreted {view : View} {fmt : Addr} (nonnull : fmt ≠ 0)
    {text : List Byte} (stored : StringAt view fmt text) :
    (∃ format : Format, format.text = text) ∧
    ∀ format : Format, format.text = text → ∀ args strings,
      Matches args strings view format.tokens 0 →
      Prints view fmt args (render args strings format.tokens 0)
        (taken format.tokens) := by
  refine ⟨exists_format text stored.ne_zero, ?_⟩
  rintro format rfl args strings matching
  exact prints_format nonnull matching stored

/-- A literal, an integer, an unknown conversion, `%%` after digits and a
conversion that is not finished; one argument is taken. -/
theorem format_interpreted_sample :
    Prints (textView "n=%4y%q%7%%5") 0x1000 (fun _ => 255)
      (ascii "n=  ff%q%") 1 := by
  have stored : StringAt (textView "n=%4y%q%7%%5") 0x1000
      (ascii "n=%4y%q%7%%5") := by decide +kernel
  exact (format_interpreted (by decide) stored).2
    ⟨[.literal (charByte 'n') (by decide), .literal (charByte '=') (by decide),
      .conversion [4] .y, .conversion [] (.other (charByte 'q') (by decide)),
      .conversion [7] .percent], some [5]⟩ (by decide +kernel) (fun _ => 255)
    (fun _ => []) ⟨trivial, trivial, ⟨fun _ => by decide, nofun⟩,
      ⟨nofun, nofun⟩, ⟨nofun, nofun⟩, trivial⟩

/-- The canonical decimal numeral of an integer. -/
def decimal (value : Int) : List Byte :=
  if value < 0 then charByte '-' :: numeral 10 value.natAbs
  else numeral 10 value.natAbs

/-- A sign is next to the digits: there is none, or no padding after it. -/
def SignFits (width : Nat) (value : Int) : Prop :=
  0 ≤ value ∨ width ≤ (numeral 10 value.natAbs).length + 1

theorem signedField_eq_iff (width : Nat) (value : Int) :
    signedField width value = (decimal value).leftpad width (charByte ' ') ↔
      SignFits width value := by
  unfold signedField decimal SignFits
  by_cases negative : value < 0
  · rw [if_pos negative, decide_eq_true negative]
    show charByte '-' :: (numeral 10 value.natAbs).leftpad (width - 1) _ = _ ↔ _
    constructor
    · intro same
      by_contra wide
      rw [not_or] at wide
      -- the right side starts with padding
      have some : width - ((numeral 10 value.natAbs).length + 1) =
          width - (numeral 10 value.natAbs).length - 2 + 1 := by omega
      rw [List.leftpad.eq_1 width, List.length_cons, some,
        List.replicate_succ] at same
      exact absurd (List.cons.inj same).1 (by decide)
    · rintro (positive | narrow)
      · omega
      · rw [leftpad_of_le _ (by omega), leftpad_of_le _ narrow]
  · rw [if_neg negative, decide_eq_false negative]
    exact iff_of_true rfl (Or.inl (Int.not_lt.mp negative))

/-- An `int` argument keeps its value. -/
theorem intArg_toInt (arg : BitVec 64) :
    (intArg arg).toInt = (arg.setWidth 32).toInt :=
  BitVec.toInt_signExtend_of_le (by decide)

/-- The sign extension of an `unsigned` argument keeps only the lower half of the
values. -/
theorem intArg_toNat_iff {arg : BitVec 64} :
    (intArg arg).toNat = (arg.setWidth 32).toNat ↔
      (arg.setWidth 32).toNat < 2 ^ 31 := by
  have value := intArg_toInt arg
  rw [BitVec.toInt_eq_toNat_cond, BitVec.toInt_eq_toNat_cond] at value
  have bound := (intArg arg).isLt
  have bound' := (arg.setWidth 32).isLt
  split at value <;> split at value <;> omega

/--
For every 32-bit argument of `%d` and every 64-bit argument of `%l`, and every
width up to 33, the conversion is printed without an access outside of its
buffer.  What it prints is the canonical numeral after the spaces that the width
asks for, exactly when the number is not negative or its sign needs no padding.
-/
theorem decimal_conversions {view : View} {fmt : Addr} (nonnull : fmt ≠ 0)
    (args : Args) (width : Width) (narrow : width.value ≤ 33) :
    (StringAt view fmt (Token.conversion width .d).text →
      ∃ out, Prints view fmt args out 1 ∧
        (out = (decimal ((args 0).setWidth 32).toInt).leftpad width.value
            (charByte ' ') ↔
          SignFits width.value ((args 0).setWidth 32).toInt)) ∧
    (StringAt view fmt (Token.conversion width .l).text →
      ∃ out, Prints view fmt args out 1 ∧
        (out = (decimal (args 0).toInt).leftpad width.value (charByte ' ') ↔
          SignFits width.value (args 0).toInt)) := by
  constructor
  · intro stored
    refine ⟨_, @prints_conversion view fmt args (fun _ => []) width .d nonnull
      ⟨fun _ => narrow, nofun⟩ stored, ?_⟩
    rw [Kind.render, intArg_toInt]
    exact signedField_eq_iff width.value _
  · intro stored
    exact ⟨_, @prints_conversion view fmt args (fun _ => []) width .l nonnull
      ⟨fun _ => narrow, nofun⟩ stored, signedField_eq_iff width.value _⟩

/-- The least 32-bit number, in a field that it just fills. -/
theorem decimal_conversions_least :
    ∃ out, Prints (textView "%11d") 0x1000 (fun _ => 0x80000000) out 1 ∧
      out = (decimal (-2147483648)).leftpad 11 (charByte ' ') := by
  rcases (@decimal_conversions (textView "%11d") 0x1000 (by decide)
    (fun _ => 0x80000000) [1, 1] (by decide)).1 (by decide +kernel) with
    ⟨out, printed, canonical⟩
  have fits : SignFits 11 (-2147483648) := Or.inr (by decide +kernel)
  exact ⟨out, printed, canonical.mpr fits⟩

/-- The sign of a padded number is before the spaces. -/
theorem decimal_sign_before_padding :
    vcprintf (textView "%5d") 8 0x1000 (fun _ => -5) = .ok (ascii "-   5", 1) ∧
    (decimal (-5)).leftpad 5 (charByte ' ') = ascii "   -5" := by
  decide +kernel

/--
For every width up to 33: `%x` prints the hexadecimal numeral of a 32-bit
argument after the spaces that the width asks for, exactly if the argument is less
than `2 ^ 31`; `%y` does so for every 64-bit argument.  `%p` prints sixteen
hexadecimal digits with the value of the pointer.
-/
theorem hexadecimal_conversions {view : View} {fmt : Addr} (nonnull : fmt ≠ 0)
    (args : Args) (width : Width) :
    (width.value ≤ 33 → StringAt view fmt (Token.conversion width .x).text →
      (Prints view fmt args ((numeral 16 ((args 0).setWidth 32).toNat).leftpad
        width.value (charByte ' ')) 1 ↔
      ((args 0).setWidth 32).toNat < 2 ^ 31)) ∧
    (width.value ≤ 33 → StringAt view fmt (Token.conversion width .y).text →
      Prints view fmt args ((numeral 16 (args 0).toNat).leftpad
        width.value (charByte ' ')) 1) ∧
    (StringAt view fmt (Token.conversion width .p).text →
      ∃ out, Prints view fmt args out 1 ∧ out.length = 16 ∧
        textValue 16 out = some (args 0).toNat) := by
  refine ⟨?_, ?_, ?_⟩
  · intro narrow stored
    have printed := @prints_conversion view fmt args (fun _ => []) width .x
      nonnull ⟨fun _ => narrow, nofun⟩ stored
    rw [Kind.render] at printed
    constructor
    · intro expected
      have same := leftpad_numeral_injective (by decide) (by decide)
        (printed.unique expected)
      exact intArg_toNat_iff.mp same
    · intro low
      rwa [intArg_toNat_iff.mpr low] at printed
  · intro narrow stored
    exact @prints_conversion view fmt args (fun _ => []) width .y nonnull
      ⟨fun _ => narrow, nofun⟩ stored
  · intro stored
    refine ⟨_, @prints_conversion view fmt args (fun _ => []) width .p nonnull
      ⟨nofun, nofun⟩ stored, ?_, ?_⟩
    · have short : (numeral 16 (args 0).toNat).length ≤ 16 :=
        (length_numeral_le_iff (by decide) (by decide)).mpr (args 0).isLt
      rw [Kind.render, List.length_leftpad]
      exact Nat.max_eq_left short
    · rw [Kind.render, List.leftpad, textValue_zeros]
      exact textValue_numeral (by decide) (by decide) _

/-- A small number in a field, and a pointer with high digits that are zero. -/
theorem hexadecimal_conversions_small :
    Prints (textView "%6x") 0x1000 (fun _ => 0xbeef)
        ((numeral 16 0xbeef).leftpad 6 (charByte ' ')) 1 ∧
      ∃ out, Prints (textView "%p") 0x1000 (fun _ => 0xb8000) out 1 ∧
        out.length = 16 ∧ textValue 16 out = some 0xb8000 :=
  ⟨((@hexadecimal_conversions (textView "%6x") 0x1000 (by decide)
    (fun _ => 0xbeef) [6]).1 (by decide) (by decide +kernel)).mpr (by decide),
  (@hexadecimal_conversions (textView "%p") 0x1000 (by decide)
    (fun _ => 0xb8000) []).2.2 (by decide +kernel)⟩

/-- The address of the I/O APIC as an argument of `%x`. -/
theorem hexadecimal_sign_extended :
    vcprintf (textView "%x") 8 0x1000 (fun _ => 0xFEC00000) =
      .ok (ascii "fffffffffec00000", 1) ∧
    numeral 16 0xFEC00000 = ascii "fec00000" := by
  decide +kernel

end Rt64.Kernel.ConsoleFormat
