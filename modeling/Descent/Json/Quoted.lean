import Descent.Json.Source

/-!
# Quoted texts

A text in quotes, with escapes. Writing escapes the quote, the backslash and
the control characters and nothing else; reading also takes the escapes that
writing never uses, among them the two halves of a character beyond the first
65536, which have to stand together.
-/

namespace Descent

namespace Json

/-- A digit of four bits. -/
def hexDigit (n : Nat) : Char := if n < 10 then Char.ofNat (48 + n) else Char.ofNat (87 + n)

/-- The value of a hexadecimal digit. -/
def hexValue? (c : Char) : Option Nat :=
  if c.isDigit then some (c.toNat - 48)
  else if 'a' ≤ c && c ≤ 'f' then some (c.toNat - 87)
  else if 'A' ≤ c && c ≤ 'F' then some (c.toNat - 55)
  else none

/-- The letter of a short escape of a control character. -/
def shortEscape? : Char → Option Char
  | '\x08' => some 'b'
  | '\x0c' => some 'f'
  | '\n' => some 'n'
  | '\r' => some 'r'
  | '\t' => some 't'
  | _ => none

/-- How a character is written between quotes. -/
def escapeChar (c : Char) : Text :=
  if c = '"' ∨ c = '\\' then ['\\', c]
  else
    match shortEscape? c with
    | some e => ['\\', e]
    | none =>
      if c.toNat < 32 then
        ['\\', 'u', '0', '0', hexDigit (c.toNat / 16), hexDigit (c.toNat % 16)]
      else [c]

/-- **A text in quotes.** -/
def quote (text : Text) : Text := '"' :: text.flatMap escapeChar ++ ['"']

/-- The character of an escape of one letter. -/
def unescape? : Char → Option Char
  | '"' => some '"'
  | '\\' => some '\\'
  | '/' => some '/'
  | 'b' => some '\x08'
  | 'f' => some '\x0c'
  | 'n' => some '\n'
  | 'r' => some '\r'
  | 't' => some '\t'
  | _ => none

/-- The value of four hexadecimal digits. -/
def hex4? (a b c d : Char) : Option Nat := do
  return ((← hexValue? a) * 16 + (← hexValue? b)) * 256
    + ((← hexValue? c) * 16 + (← hexValue? d))

/-- Whether a number is the first half of a character. -/
def isHighHalf (n : Nat) : Bool := 0xD800 ≤ n && n < 0xDC00

/-- Whether a number is the second half of a character. -/
def isLowHalf (n : Nat) : Bool := 0xDC00 ≤ n && n < 0xE000

/-- The character of two halves. -/
def joinHalves (high low : Nat) : Char :=
  Char.ofNat (0x10000 + (high - 0xD800) * 0x400 + (low - 0xDC00))

/-- **The text up to the closing quote**, what was read before in reverse. -/
def readQuoted (read : Text) : Source → Option (Text × Source)
  | some '"' :: s => some (read.reverse, s)
  | some '\\' :: some 'u' :: some a :: some b :: some c :: some d ::
      some '\\' :: some 'u' :: some e :: some f :: some g :: some h :: s => do
    let n ← hex4? a b c d
    if isHighHalf n then
      let m ← hex4? e f g h
      if isLowHalf m then readQuoted (joinHalves n m :: read) s else none
    else if isLowHalf n then none
    else
      readQuoted (Char.ofNat n :: read)
        (some '\\' :: some 'u' :: some e :: some f :: some g :: some h :: s)
  | some '\\' :: some 'u' :: some a :: some b :: some c :: some d :: s => do
    let n ← hex4? a b c d
    if isHighHalf n || isLowHalf n then none else readQuoted (Char.ofNat n :: read) s
  | some '\\' :: some c :: s => do readQuoted ((← unescape? c) :: read) s
  | some c :: s => if c.toNat < 32 then none else readQuoted (c :: read) s
  | _ => none
termination_by s => s.length

/-- Passes a text up to the closing quote. Escapes have to be well-formed, but
nobody asks which characters they denote. -/
def skipQuoted : Source → Option Source
  | some '"' :: s => some s
  | some '\\' :: some 'u' :: some a :: some b :: some c :: some d :: s =>
    if (hex4? a b c d).isSome then skipQuoted s else none
  | some '\\' :: some c :: s => if (unescape? c).isSome then skipQuoted s else none
  | some '\\' :: _ => none
  | some c :: s => if c.toNat < 32 then none else skipQuoted s
  | none :: s => skipQuoted s
  | [] => none

/-- A text in quotes at the beginning of a source. -/
def readText : Reader Text
  | some '"' :: s => readQuoted [] s
  | _ => none

end Json

end Descent
