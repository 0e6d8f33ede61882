import Descent.Parser.Sequence
import Descent.Parser.Token

/-!
# Real number literals

A real number literal is an optional sign, digits with an optional fraction or
a fraction alone, and an optional exponent. `Decimal.Spelling` holds the parts
of one, `Decimal.spelling?` takes the literal at the beginning of a text, and
`Decimal.Spelling.value` is the nearest floating-point number.

Each part is taken as long as it can be, and a point or an exponent without
digits is left alone, so the literal is the longest one there is.
-/

namespace Descent

namespace Decimal

/-- The value of decimal digits. -/
def digitsValue (digits : Text) : Nat :=
  digits.foldl (fun n c => 10 * n + (c.toNat - '0'.toNat)) 0

/-- The parts of a literal. -/
structure Spelling where
  sign : Text
  whole : Text
  /-- The digits after the point; none when there is no point. -/
  fraction : Text
  /-- The letter, sign and digits of the exponent; none when there is none. -/
  mark : Text
  exponentSign : Text
  exponent : Text
  deriving Repr, DecidableEq

/-- The text of a literal. -/
def Spelling.text (s : Spelling) : Text :=
  s.sign ++ s.whole ++ (if s.fraction.isEmpty then [] else '.' :: s.fraction)
    ++ s.mark ++ s.exponentSign ++ s.exponent

/-- An optional sign, and the rest. -/
def takeSign : Text → Text × Text
  | '+' :: cs => (['+'], cs)
  | '-' :: cs => (['-'], cs)
  | cs => ([], cs)

/-- The digits at the beginning, and the rest. -/
def takeDigits (cs : Text) : Text × Text := (cs.takeWhile Char.isDigit, cs.dropWhile Char.isDigit)

/-- A point with digits after it, without the point, and the rest. -/
def takeFraction (cs : Text) : Text × Text :=
  match cs with
  | '.' :: rest =>
    match takeDigits rest with
    | ([], _) => ([], cs)
    | taken => taken
  | _ => ([], cs)

/-- The letter of an exponent, its sign and its digits. -/
def takeExponent (cs : Text) : Text × Text × Text :=
  match cs with
  | c :: rest =>
    if c = 'e' ∨ c = 'E' then
      let (sign, rest) := takeSign rest
      match takeDigits rest with
      | ([], _) => ([], [], [])
      | (digits, _) => ([c], sign, digits)
    else ([], [], [])
  | [] => ([], [], [])

/-- **The literal at the beginning of a text.** -/
def spelling? (cs : Text) : Option Spelling :=
  let (sign, cs) := takeSign cs
  let (whole, cs) := takeDigits cs
  let (fraction, cs) := takeFraction cs
  if whole.isEmpty && fraction.isEmpty then none
  else
    let (mark, exponentSign, exponent) := takeExponent cs
    some ⟨sign, whole, fraction, mark, exponentSign, exponent⟩

/-- The nearest floating-point number to `digits * 10 ^ exponent`. Far outside the
range of exponents the answer is known without the powers of ten. -/
def nearest (digits : Nat) (exponent : Int) : Float :=
  let magnitude : Int := (toString digits).length + exponent
  if digits = 0 then 0
  else if 400 < magnitude then Float.ofBits 0x7FF0000000000000
  else if magnitude < -400 then 0
  else Float.ofScientific digits (exponent < 0) exponent.natAbs

/-- **The value of a literal.** -/
def Spelling.value (s : Spelling) : Float :=
  let power : Int := if s.exponentSign = ['-'] then -(digitsValue s.exponent : Int)
    else digitsValue s.exponent
  let magnitude := nearest (digitsValue (s.whole ++ s.fraction)) (power - s.fraction.length)
  if s.sign = ['-'] then -magnitude else magnitude

/-- The value of a text that is a literal and nothing else. -/
def value? (cs : Text) : Option Float :=
  match spelling? cs with
  | some s => if s.text = cs then some s.value else none
  | none => none

end Decimal

/-- A real number literal. -/
def Reader.real : Reader := fun rest => (Decimal.spelling? rest).map fun s => Match.here s.text

namespace Parser

/-- Matches a real number literal, with a message of one's own. -/
def realWith (message : String) : Parser Float :=
  (token Reader.real message).bind fun text =>
    match Decimal.value? text.toList with
    | some x => succeed x
    | none => fail message

/-- **Matches a real number literal.** -/
def real : Parser Float := realWith "Does not match the real number"

end Parser

end Descent
