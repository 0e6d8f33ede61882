import Descent.Decimal.Layout
import Descent.Grammar.Value
import Descent.Parser.Basic
import Descent.Unicode.Category

/-!
# Display

How texts, values, replies and environments are displayed to a programmer. A
text is displayed in quotes; what could not be seen, or would change what stands
before it, is displayed by its number.
-/

namespace Descent

namespace Display

/-- Whether a character can be seen by itself. -/
def isVisible (c : Char) : Bool :=
  c == ' ' ||
    match Unicode.Category.ofChar c with
    | .cc | .cf | .cs | .co | .cn | .zl | .zp | .zs => false
    | _ => true

/-- A character of a text. -/
def char (c : Char) : Text :=
  if c = '"' then ['\\', '"']
  else if c = '\\' then ['\\', '\\']
  else if c = '\n' then ['\\', 'n']
  else if c = '\r' then ['\\', 'r']
  else if c = '\t' then ['\\', 't']
  else if c = '\x00' then ['\\', '0']
  else if isVisible c && !Unicode.graphemeExtend.contains c then [c]
  else ['\\', 'u', '\x7b'] ++ Nat.toDigits 16 c.toNat ++ ['\x7d']

/-- A text. -/
def text (t : Text) : String := "\"" ++ String.ofList (t.flatMap char) ++ "\""

mutual

/-- A value. -/
def value : Value → String
  | .unit => "()"
  | .bool b => if b then "true" else "false"
  | .int n => toString n.toInt
  | .real x => Decimal.Layout.detailed.write x
  | .str s => text s.toList
  | .list items => "[" ++ ", ".intercalate (values items) ++ "]"
  | .none => "None"
  | .some content => "Some(" ++ value content ++ ")"

/-- Values. -/
def values : List Value → List String
  | [] => []
  | v :: vs => value v :: values vs

end

/-- The members of a record between braces. -/
def members (fields : List (String × String)) : String :=
  "\x7b " ++ ", ".intercalate (fields.map fun (name, shown) => name ++ ": " ++ shown) ++ " \x7d"

/-- A position that may be absent. -/
def position? : Option Nat → String
  | none => "None"
  | some n => "Some(" ++ toString n ++ ")"

def bool (b : Bool) : String := if b then "true" else "false"

/-- A reply. -/
def reply : Reply Value → String
  | .ok _ position v =>
    "Ok " ++ members [("position", toString position), ("value", value v)]
  | .fail message about =>
    "Err " ++ members [("message", text message.toList), ("position", position? about)]

/-- An environment. -/
def env (env : Env) : String :=
  "Env " ++ members [("subject", text env.subject), ("skip", bool env.skip.isSome),
    ("follow", bool env.follow.isSome)]

end Display

end Descent
