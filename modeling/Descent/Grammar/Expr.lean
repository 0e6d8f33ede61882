import Descent.Grammar.Value

/-!
# Expressions

What the functions in a grammar compute when the grammar is given as data. An
expression has a value for any binding of its variables: an operation that does
not apply to its operands has a value all the same, so evaluation is total and
needs no typing.
-/

namespace Descent

/-- An expression. -/
inductive Expr where
  | lit (v : Value)
  | var (name : String)
  /-- The texts of some values, joined. -/
  | cat (es : List Expr)
  | list (es : List Expr)
  | append (a b : Expr)
  /-- The integer of a text, or zero. -/
  | int (e : Expr)
  /-- The number of items, or of bytes of the text. -/
  | len (e : Expr)
  /-- The text with capital letters in place of small ones. -/
  | upper (e : Expr)
  | text (e : Expr)
  | some (e : Expr)
  | none
  /-- What is there, or else another value. -/
  | orElse (content e : Expr)
  | eq (a b : Expr)
  | lt (a b : Expr)
  | ite (condition yes no : Expr)
  /-- The operation that a text names, on integers or on real numbers. -/
  | arith (operation a b : Expr)

/-- The values of variables, the innermost first. -/
abbrev Bindings := List (String × Value)

namespace Expr

/-- The result of an operation on numbers. Whatever is no sign of another
operation divides; integers wrap around, and dividing one by zero gives zero. -/
def operate (operation : String) : Value → Value → Value
  | .int a, .int b =>
    .int (if operation = "+" then a + b else if operation = "-" then a - b
      else if operation = "*" then a * b else a / b)
  | .real a, .real b =>
    .real (if operation = "+" then a + b else if operation = "-" then a - b
      else if operation = "*" then a * b else a / b)
  | _, _ => .unit

mutual

/-- **The value of an expression.** -/
def eval (vars : Bindings) : Expr → Value
  | lit v => v
  | var name => (vars.lookup name).getD .unit
  | cat es => .str (String.join ((evalAll vars es).map Value.text))
  | list es => .list (evalAll vars es)
  | append a b => .list ((a.eval vars).items ++ (b.eval vars).items)
  | int e => .int (Int64.ofInt ((Value.integer? (e.eval vars).text.toList).getD 0))
  | len e =>
    match e.eval vars with
    | .list items => .int (Int64.ofNat items.length)
    | v => .int (Int64.ofNat v.text.utf8ByteSize)
  | upper e => .str ((e.eval vars).text.map Char.toUpper)
  | text e => .str (e.eval vars).text
  | some e => .some (e.eval vars)
  | none => .none
  | orElse content e =>
    match content.eval vars with
    | .some v => v
    | _ => e.eval vars
  | eq a b => .bool ((a.eval vars).same (b.eval vars))
  | lt a b => .bool (decide ((a.eval vars).toInt64 < (b.eval vars).toInt64))
  | ite condition yes no => if (condition.eval vars).isTrue then yes.eval vars else no.eval vars
  | arith operation a b => operate (operation.eval vars).text (a.eval vars) (b.eval vars)

/-- The values of expressions. -/
def evalAll (vars : Bindings) : List Expr → List Value
  | [] => []
  | e :: es => e.eval vars :: evalAll vars es

end

/-- The text of an expression. -/
def evalText (vars : Bindings) (e : Expr) : String := (e.eval vars).text

end Expr

end Descent
