import Descent.Parser.Token

/-!
# Identifiers

An identifier of Java: a start character and the longest run of part characters
after it. Which characters these are is told by their general categories.
-/

namespace Descent

namespace Literal

/-- Letters, letter numbers, currency symbols and connectors begin an identifier. -/
def isIdentifierStart (c : Char) : Bool :=
  match Unicode.Category.ofChar c with
  | .lu | .ll | .lt | .lm | .lo | .nl | .sc | .pc => true
  | _ => false

/-- The control characters that an identifier may hold. -/
def isIgnorableControl (c : Char) : Bool :=
  let n := c.toNat
  n ≤ 0x8 || (0xE ≤ n && n ≤ 0x1B) || (0x7F ≤ n && n ≤ 0x9F)

/-- Digits, marks, format characters and some control characters may follow. -/
def isIdentifierPart (c : Char) : Bool :=
  isIdentifierStart c || isIgnorableControl c ||
    match Unicode.Category.ofChar c with
    | .nd | .mn | .mc | .cf => true
    | _ => false

/-- What is said about a text that is no identifier. -/
def identifierMessage : String := "Does not match identifier"

/-- The identifier at the beginning of a text. -/
def identifierReader : Reader
  | [] => none
  | c :: cs =>
    if isIdentifierStart c then some (Match.here (c :: cs.takeWhile isIdentifierPart)) else none

/-- **An identifier of Java**, with a message of one's own. -/
def javaIdentifier (message : String) : Parser String := Parser.token identifierReader message

end Literal

end Descent
