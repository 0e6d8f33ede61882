import Descent.Decimal.Layout
import Descent.Decimal.Reading
import Descent.Parser.Recursion
import Descent.Parser.Run
import Descent.Unicode.Category

/-!
# A calculator

Arithmetic on real numbers: factors, products of factors, sums of products. An
`Invocation` is what a user asks for, and `Invocation.run` is all that comes of
it: lines for the two outputs, and the error that ended the run if there was one.

Each line of the input is evaluated by itself. A line that is no expression is
told so and the next one follows; a run that cannot even begin ends the whole.
-/

namespace Descent

namespace Calculator

/-- What an operator makes of its operands; whatever is no sign of another operation
divides. -/
def operate (x : Float) (operator : String) (y : Float) : Float :=
  if operator = "+" then x + y
  else if operator = "-" then x - y
  else if operator = "*" then x * y
  else x / y

/-- A parser of operators. -/
def operator (pattern : String) : Except Fault (Parser String) :=
  match Parser.pattern pattern with
  | .ok p => .ok p
  | .error _ => .error .invalidPattern

/-- The operators between factors. -/
def productOperator : Except Fault (Parser String) := operator "[\\*/]"

/-- The operators between products. -/
def sumOperator : Except Fault (Parser String) := operator "[\\+\\-]"

/-- Sums of products of factors. -/
def sum (factor : Parser Float) : Except Fault (Parser Float) := do
  let product := factor.foldSep (← productOperator) operate
  return product.foldSep (← sumOperator) operate

/-- A number, or a sum in parentheses. -/
def factor (sum : Parser Float) : Parser Float :=
  Parser.real.orElse (((Parser.string "(").seqRight sum).seqLeft (Parser.string ")"))

/-- The sums. -/
def expression : Parser Float :=
  .letrec2 ⟨0, []⟩ (fun _ factor => sum factor) (fun sum _ => .ok (factor sum))

/-- **The calculator**: an expression and nothing after it. -/
def parser : Parser Float := expression.seqLeft .atEnd

/-- What a user asks for. -/
structure Invocation where
  /-- The expression, or nothing: then the lines of the input are read. -/
  expression : Option String
  /-- What is found at the path of the options, if one is given. -/
  options : Option File
  /-- The pattern of what is skipped. -/
  skip : Option String

/-- The options of an invocation: those of the file, or blanks are skipped; a skip
of one's own overrides either. -/
def Invocation.parseOptions (i : Invocation) : Except RunError ParseOptions := do
  let options ← match i.options with
    | some file => ParseOptions.record.ofFile file
    | none => .ok (ParseOptions.withSkip {} "\\s+")
  return match i.skip with
    | some skip => options.withSkip skip
    | none => options

/-- What is printed for a line. -/
inductive Printed where
  | value (x : Float)
  | failure (message : String) (position : Option Nat)

/-- What comes of an invocation. -/
structure Report where
  /-- What is printed for each line, in order. -/
  printed : List Printed
  /-- Why the run ended early. -/
  error : Option RunError
  /-- The fault that stopped the run. -/
  fault : Option Fault

/-- The calls that a line can nest: a sum calls a factor, and a factor calls a sum
only after an opening parenthesis. -/
def budget (line : Text) : Nat := 2 * (line.count '(' + 1)

/-- Evaluates lines in order with one grammar. -/
def evaluate (options : ParseOptions) (knots : Knots) : List String → Report
  | [] => ⟨[], none, none⟩
  | line :: lines =>
    match parser.runWith line.toList options (budget line.toList) knots with
    | .done (.ok (.ok _ _ x)) _ knots =>
      let report := evaluate options knots lines
      { report with printed := .value x :: report.printed }
    | .done (.ok (.fail message about)) _ knots =>
      let report := evaluate options knots lines
      { report with printed := .failure message about :: report.printed }
    | .done (.error e) _ _ => ⟨[], some e, none⟩
    | .fault cause _ _ => ⟨[], none, some cause⟩
    | .exhausted => ⟨[], none, none⟩

/-- Whether nothing but white space stands in a line. -/
def isBlank (line : String) : Bool := line.toList.all Unicode.whiteSpace.contains

/-- The lines of an input without their ends: a line feed, with or without a
carriage return before it. -/
def linesOf (input : String) : List String :=
  let rec go (line : Text) : Text → List String
    | [] => if line.isEmpty then [] else [String.ofList line.reverse]
    | '\n' :: cs =>
      String.ofList ((match line with
        | '\r' :: line => line
        | line => line).reverse) :: go [] cs
    | c :: cs => go (c :: line) cs
  go [] input.toList

/-- **All that comes of an invocation** with an input. -/
def Invocation.run (i : Invocation) (input : String) : Report :=
  match i.parseOptions with
  | .error e => ⟨[], some e, none⟩
  | .ok options =>
    evaluate options .initial <|
      match i.expression with
      | some expression => [expression]
      | none => (linesOf input).filter fun line => !isBlank line

/-- The text of the lines in front of the first that is no text. Of bytes that are no text as
a whole, those behind the last line feed are no text if all other lines are. -/
def textInFront (input : ByteArray) : String :=
  let rec go (line : List UInt8) : List UInt8 → String
    | [] => ""
    | byte :: bytes =>
      if byte = 10 then
        match String.fromUTF8? ⟨line.reverse.toArray⟩ with
        | some text => text ++ "\n" ++ go [] bytes
        | none => ""
      else go (byte :: line) bytes
  go [] input.data.toList

/-- All that comes of an invocation with the bytes of an input. The lines are evaluated up to
the first that is no text, and there the run ends. -/
def Invocation.runOn (i : Invocation) (input : ByteArray) : Report :=
  match String.fromUTF8? input with
  | some text => i.run text
  | none =>
    let report := i.run (textInFront input)
    if i.expression.isSome || report.error.isSome || report.fault.isSome then report
    else { report with error := some (.unreadable "stream did not contain valid UTF-8") }

/-- What is told of an error. -/
def complaint (message : String) : String := "Error: " ++ message ++ "\n"

namespace Report

/-- The text on the output. -/
def output (r : Report) : String :=
  String.join (r.printed.map fun
    | .value x => Decimal.Layout.plain.write x ++ "\n"
    | .failure .. => "")

/-- The text on the output for errors. -/
def errors (r : Report) : String :=
  String.join (r.printed.map fun
    | .value _ => ""
    | .failure message about => complaint (failureText message about))
  ++ (match r.error with
    | some e => complaint e.message
    | none => "")
  ++ (match r.fault with
    | some cause => complaint cause.message
    | none => "")

/-- The exit code. -/
def code (r : Report) : UInt32 :=
  if r.error.isSome || r.fault.isSome then 1 else 0

end Report

end Calculator

end Descent
