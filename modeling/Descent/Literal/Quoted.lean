import Descent.Literal.Number
import Descent.Parser.Repetition
import Descent.Parser.Scope

/-!
# String literals

A string literal is a quote, fragments, and the quote again. A fragment is an
escape that gives a character by number, an escape `\c` of one character that
an escape function gives a meaning, or a run of characters that stand for
themselves. They are tried in this order, and an escape by number that denotes
no character is tried on as the next form.

Only the opening quote is skipped to; what is between the quotes is read
verbatim, in an environment without a skip.
-/

namespace Descent

/-- Which escapes by number a string literal may use, and whether it may run over
the end of a line. -/
structure StringFormat where
  /-- Newlines may stand in the literal. -/
  includeNewline : Bool := false
  /-- Three octal digits, the first up to 3. -/
  octal : Bool := false
  /-- `x` and two hexadecimal digits. -/
  hex2 : Bool := false
  /-- `u` and four hexadecimal digits. -/
  unicode4 : Bool := false
  /-- `x` and one to four hexadecimal digits. -/
  hexVar : Bool := false
  /-- `u` and hexadecimal digits in braces. -/
  jsCodePoint : Bool := false
  /-- `U` and eight hexadecimal digits. -/
  csharpCodePoint : Bool := false
  deriving Repr, DecidableEq

namespace StringFormat

def c : StringFormat := ⟨false, true, true, false, false, false, false⟩

def csharp : StringFormat := ⟨false, false, false, true, true, false, true⟩

def java : StringFormat := ⟨false, true, false, true, false, false, false⟩

def js : StringFormat := ⟨false, true, true, true, false, true, false⟩

end StringFormat

/-- What the character after a backslash stands for; `none` rejects it. -/
abbrev Escape := Char → Option Text

namespace Escape

/-- The escapes that most notations share. -/
def common : Escape
  | '0' => some ['\x00']
  | 'b' => some ['\x08']
  | 'f' => some ['\x0c']
  | 'n' => some ['\n']
  | 'r' => some ['\r']
  | 't' => some ['\t']
  | 'v' => some ['\x0b']
  | '\'' => some ['\'']
  | '"' => some ['"']
  | '\\' => some ['\\']
  | _ => none

def c : Escape
  | '?' => some ['?']
  | 'a' => some ['\x07']
  | x => common x

def csharp : Escape
  | 'a' => some ['\x07']
  | x => common x

def java : Escape
  | '0' | 'v' => none
  | x => common x

def js : Escape := common

end Escape

/-- A form of escape that gives a character by number. -/
structure CodeForm where
  /-- The pattern of the form, for messages. -/
  pattern : String
  /-- What stands before the digits. -/
  opening : Text
  /-- What the first digit may be. -/
  isFirst : Char → Bool
  /-- What the digits may be. -/
  isDigit : Char → Bool
  /-- The fewest and the most digits. -/
  least : Nat
  most : Option Nat
  /-- What stands after the digits. -/
  closing : Text
  base : Nat

namespace CodeForm

/-- The digits of the form where its opening was read: as many as there are, up to
the most. -/
def digits (form : CodeForm) (rest : Text) : Text :=
  let run := match rest with
    | [] => []
    | c :: cs => if form.isFirst c then c :: cs.takeWhile form.isDigit else []
  match form.most with
  | none => run
  | some n => run.take n

/-- The digits of the form at the beginning of a text. -/
def digits? (form : CodeForm) (cs : Text) : Option Text := do
  let rest ← Text.dropExact? form.opening cs
  let digits := form.digits rest
  if digits.length < form.least then none
  else
    let _ ← Text.dropExact? form.closing (rest.drop digits.length)
    some digits

/-- The whole escape at the beginning of a text. -/
def reader (form : CodeForm) : Reader := fun cs =>
  (form.digits? cs).map fun digits => Match.here (form.opening ++ digits ++ form.closing)

/-- The character of a number; none for a surrogate or a number too large. -/
def charOf? (n : Nat) : Option Char :=
  if h : n.isValidChar then some (Char.ofNatAux n h) else none

/-- What an escape of the form stands for. -/
def meaning (form : CodeForm) : Text → Option Text := fun escape =>
  (form.digits? escape).bind fun digits =>
    (charOf? (Literal.valueIn form.base digits)).map fun c => [c]

def octal : CodeForm :=
  ⟨"\\\\[0-3][0-7]\x7b2\x7d", ['\\'], fun c => '0' ≤ c && c ≤ '3', Literal.isOctalDigit,
    3, some 3, [], 8⟩

/-- A form of hexadecimal digits. -/
def hex (pattern : String) (opening : Text) (least : Nat) (most : Option Nat) (closing : Text) :
    CodeForm :=
  ⟨pattern, opening, Literal.isHexDigit, Literal.isHexDigit, least, most, closing, 16⟩

def hex2 : CodeForm := hex "\\\\x[0-9A-Fa-f]\x7b2\x7d" ['\\', 'x'] 2 (some 2) []

def unicode4 : CodeForm := hex "\\\\u[0-9A-Fa-f]\x7b4\x7d" ['\\', 'u'] 4 (some 4) []

def hexVar : CodeForm := hex "\\\\x[0-9A-Fa-f]\x7b1,4\x7d" ['\\', 'x'] 1 (some 4) []

def jsCodePoint : CodeForm :=
  hex "\\\\u\\\x7b[0-9A-Fa-f]+\\\x7d" ['\\', 'u', '\x7b'] 1 none ['\x7d']

def csharpCodePoint : CodeForm := hex "\\\\U[0-9A-Fa-f]\x7b8\x7d" ['\\', 'U'] 8 (some 8) []

end CodeForm

/-- The forms of escape by number that a format allows, in the order of trial. -/
def StringFormat.codeForms (format : StringFormat) : List CodeForm :=
  (if format.octal then [CodeForm.octal] else [])
    ++ (if format.hex2 then [CodeForm.hex2] else [])
    ++ (if format.unicode4 then [CodeForm.unicode4] else [])
    ++ (if format.hexVar then [CodeForm.hexVar] else [])
    ++ (if format.jsCodePoint then [CodeForm.jsCodePoint] else [])
    ++ (if format.csharpCodePoint then [CodeForm.csharpCodePoint] else [])

namespace Literal

/-- What is said about a text that is no string literal. -/
def stringMessage : String := "Does not match a string literal"

/-- A token, replaced by what it stands for. One that stands for nothing fails
where it was called. -/
def decoded (read : Reader) (pattern : String) (meaning : Text → Option Text) :
    Parser Text := ⟨fun env position => do
  match ← (Parser.token read ("Does not match pattern " ++ pattern)).run env position with
  | .ok env stop text =>
    match meaning text.toList with
    | some t => pure (.ok env stop t)
    | none => pure (.fail ("Invalid escape sequence " ++ text) (some position))
  | .fail message about => pure (.fail message about)⟩

/-- An escape by number. -/
def code (form : CodeForm) : Parser Text := decoded form.reader form.pattern form.meaning

/-- A backslash and a character that does not end the line. -/
def pairReader : Reader
  | '\\' :: c :: _ => if c = '\n' then none else some (Match.here ['\\', c])
  | _ => none

/-- What the escape of one character stands for. -/
def pairMeaning (escape : Escape) : Text → Option Text
  | _ :: c :: _ => escape c
  | _ => none

/-- An escape of one character. -/
def pair (escape : Escape) : Parser Text := decoded pairReader "\\\\." (pairMeaning escape)

/-- Whether a character stands for itself. -/
def isPlain (quote : Char) (format : StringFormat) (c : Char) : Bool :=
  c != '\\' && c != quote && (format.includeNewline || c != '\n')

/-- Whether a character has a meaning of its own in patterns. -/
def isMeta (c : Char) : Bool :=
  "\\.+*?()|[]\x7b\x7d^$#&-~".toList.contains c

/-- The pattern of a run of characters that stand for themselves. -/
def plainPattern (quote : Char) (format : StringFormat) : String :=
  String.ofList (['[', '^', '\\', '\\'] ++ (if isMeta quote then ['\\', quote] else [quote])
    ++ (if format.includeNewline then [] else ['\\', 'n']) ++ [']', '+'])

/-- A run of characters that stand for themselves. -/
def plain (quote : Char) (format : StringFormat) : Parser Text :=
  (Parser.token (Reader.run1 (isPlain quote format))
    ("Does not match pattern " ++ plainPattern quote format)).map String.toList

/-- A fragment of a string literal: the alternatives, joined from the left. -/
def fragment (quote : Char) (escape : Escape) (format : StringFormat) : Parser Text :=
  match format.codeForms.map code with
  | [] => (pair escape).orElse (plain quote format)
  | first :: rest =>
    ((rest.foldl Parser.orElse first).orElse (pair escape)).orElse (plain quote format)

/-- The fragments and the closing quote. -/
def body (quote : Char) (escape : Escape) (format : StringFormat) : Parser Text :=
  (((fragment quote escape format).foldMany (fun a b => a ++ b) []).seqLeft
    (Parser.string (String.singleton quote))).inEnv Env.withoutSkip

/-- **A string literal**, with a message of one's own. -/
def quotedWith (quote : Char) (escape : Escape) (format : StringFormat) (message : String) :
    Parser String :=
  (((Parser.string (String.singleton quote)).seqRight (body quote escape format)).map
    String.ofList).withMessage message

def quoted (quote : Char) (escape : Escape) (format : StringFormat) : Parser String :=
  quotedWith quote escape format stringMessage

/-- A double-quoted string literal of C. -/
def cString (message : String) : Parser String := quotedWith '"' .c .c message

/-- A double-quoted string literal of C#. -/
def csharpString (message : String) : Parser String := quotedWith '"' .csharp .csharp message

/-- A double-quoted string literal of Java. -/
def javaString (message : String) : Parser String := quotedWith '"' .java .java message

/-- A double-quoted string literal of JavaScript. -/
def jsString (message : String) : Parser String := quotedWith '"' .js .js message

end Literal

end Descent
