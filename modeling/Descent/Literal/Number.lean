import Descent.Parser.Choice
import Descent.Parser.Token

/-!
# Integer literals

An integer literal is an optional minus and a magnitude in one of up to four
radices. The readings are tried in a fixed order, octal, binary, hexadecimal,
decimal, and each of them is a marker and a run of digits that is taken as long
as it can be. A magnitude has to fit into a signed word of 64 bits; whatever
goes wrong, the failure is about the position of the sign.
-/

namespace Descent

/-- Which radices an integer literal may use besides decimal and hexadecimal. -/
structure NumberFormat where
  /-- Binary digits after `0b`. -/
  binary : Bool := true
  /-- Octal digits after `0`; otherwise a leading zero is a decimal digit. -/
  octal : Bool := true
  deriving Repr, DecidableEq

/-- Decimal and hexadecimal only. -/
def NumberFormat.decimal : NumberFormat := ⟨false, false⟩

namespace Literal

/-- The largest magnitude of an integer literal. -/
def maxMagnitude : Nat := 0x7FFFFFFFFFFFFFFF

/-- The value of a digit, in any radix up to sixteen. -/
def digitValue (c : Char) : Nat :=
  if c.isDigit then c.toNat - '0'.toNat
  else if 'a' ≤ c && c ≤ 'f' then c.toNat - 'a'.toNat + 10
  else if 'A' ≤ c && c ≤ 'F' then c.toNat - 'A'.toNat + 10
  else 0

/-- The value of digits in a radix. -/
def valueIn (base : Nat) (digits : Text) : Nat :=
  digits.foldl (fun n c => n * base + digitValue c) 0

def isBinaryDigit (c : Char) : Bool := c == '0' || c == '1'

def isOctalDigit (c : Char) : Bool := '0' ≤ c && c ≤ '7'

def isHexDigit (c : Char) : Bool :=
  c.isDigit || ('a' ≤ c && c ≤ 'f') || ('A' ≤ c && c ≤ 'F')

/-- What is said about a text that is no integer literal. -/
def numberMessage : String := "Does not match number literal"

/-- A run of digits with its value; the pattern stands in the message. -/
def digits (pattern : String) (isDigit : Char → Bool) (base : Nat) : Parser Nat :=
  (Parser.token (Reader.run1 isDigit) ("Does not match pattern " ++ pattern)).bind fun text =>
    let value := valueIn base text.toList
    if value ≤ maxMagnitude then .succeed value else .fail numberMessage

def octal : Parser Nat := (Parser.string "0").seqRight (digits "[0-7]+" isOctalDigit 8)

def binary : Parser Nat := (Parser.string "0b").seqRight (digits "[01]+" isBinaryDigit 2)

def hexadecimal : Parser Nat :=
  (Parser.string "0x").seqRight (digits "[0-9a-fA-F]+" isHexDigit 16)

def decimal : Parser Nat := digits "[0-9]+" Char.isDigit 10

/-- The magnitude of an integer literal. -/
def magnitude (format : NumberFormat) : Parser Nat :=
  let plain := hexadecimal.orElse decimal
  let signed := if format.binary then binary.orElse plain else plain
  if format.octal then octal.orElse signed else signed

/-- **An integer literal.** -/
def number (format : NumberFormat) : Parser Int :=
  Parser.position.bind fun start =>
    ((Parser.string "-").withDefault "").bind fun sign =>
      ((magnitude format).mapMessageAt (fun _ => numberMessage) (fun _ => start)).map fun n =>
        if sign = "-" then -(n : Int) else n

end Literal

end Descent
