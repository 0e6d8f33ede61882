import Descent.Calculator

/-!
# The command line of the calculator

`calculator [EXPRESSION] [--options FILE] [--skip PATTERN]`. Without an
expression the lines of the standard input are evaluated.
-/

namespace Descent.Calculator

/-- What the arguments ask for, up to the content of the options file. -/
structure Arguments where
  expression : Option String := none
  options : Option String := none
  skip : Option String := none

/-- Reads the arguments; `none` when they make no sense. -/
def Arguments.read? (a : Arguments) : List String → Option Arguments
  | [] => some a
  | "-o" :: path :: rest => { a with options := some path }.read? rest
  | "--options" :: path :: rest => { a with options := some path }.read? rest
  | "-s" :: pattern :: rest => { a with skip := some pattern }.read? rest
  | "--skip" :: pattern :: rest => { a with skip := some pattern }.read? rest
  | word :: rest =>
    if a.expression.isNone then { a with expression := some word }.read? rest else none

/-- Looks at what is at a path. -/
def look (path : String) : IO File := do
  try return .holding (← IO.FS.readBinFile path)
  catch
    | .noFileOrDirectory .. => return .missing
    | .inappropriateType .. => return .directory
    | e => return .unopened (toString e)

/-- Prints a report in order. -/
def print (report : Report) : IO Unit := do
  for line in report.printed do
    let one : Report := ⟨[line], none, none⟩
    IO.print one.output
    IO.eprint one.errors
  let rest : Report := { report with printed := [] }
  IO.eprint rest.errors

end Descent.Calculator

open Descent.Calculator in
/-- Evaluates as the arguments ask. -/
def main (args : List String) : IO UInt32 := do
  let some a := ({} : Arguments).read? args
    | IO.eprintln "usage: calculator [EXPRESSION] [--options FILE] [--skip PATTERN]"
      return 2
  let options ← a.options.mapM look
  let input ← if a.expression.isSome then pure .empty else (← IO.getStdin).readBinToEnd
  let report := Invocation.runOn ⟨a.expression, options, a.skip⟩ input
  print report
  return report.code
