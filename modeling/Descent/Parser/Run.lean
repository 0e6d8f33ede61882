import Descent.Options
import Descent.Regex.Matching

/-!
# Running a parser

All ways to run a parser are one: make an environment, check the start, parse.
`Parser.runIn` is that run, and everything else here makes its environment. The
patterns of an environment are compiled before the start is looked at, the one
of the skip first, so of two things that are wrong the pattern is reported.
-/

namespace Descent

/-- What is skipped, or what may follow a keyword: the text of a pattern, or a
parser. -/
inductive Pattern where
  | text (pattern : String)
  | parser (p : Parser String)

/-- The scan of a pattern. -/
def Pattern.scan : Pattern → Except RunError Scan
  | text pattern => (Parser.pattern pattern).map Parser.scan
  | parser p => .ok p.scan

/-- The environment of a subject with the texts of patterns. -/
def Env.withPatterns (subject : Text) (skip follow : Option String) : Except RunError Env := do
  let skip ← skip.mapM fun pattern => (Pattern.text pattern).scan
  let follow ← follow.mapM fun pattern => (Pattern.text pattern).scan
  return ⟨subject, skip, follow⟩

/-- The environment that options describe. -/
def ParseOptions.env (options : ParseOptions) (subject : Text) : Except RunError Env :=
  Env.withPatterns subject options.skip options.follow

/-- The reply of a run, or why there was none. -/
abbrev RunResult (α : Type) := Except RunError (Reply α)

namespace Parser

variable {α : Type}

/-- Parses from the beginning of a subject. -/
def runText (p : Parser α) (subject : Text) : Eval (Reply α) := p.run (Env.new subject) 0

/-- **A run**: checks that the start is a position of the subject, then parses. -/
def runIn (p : Parser α) (env : Env) (start : Nat) : Eval (RunResult α) := do
  Eval.emit (.runEntered start env.length)
  if env.length < start then pure (.error (.positionOutOfRange start env.length))
  else if (env.from? start).isNone then pure (.error (.notCharBoundary start))
  else
    let reply ← p.run env start
    Eval.emit (.runFinished reply.isOk)
    pure (.ok reply)

/-- Runs in an environment that may not be there. -/
def runInE (p : Parser α) (env : Except RunError Env) (start : Nat) : Eval (RunResult α) :=
  match env with
  | .ok env => p.runIn env start
  | .error e => pure (.error e)

/-- Runs from a position of a subject. -/
def runFrom (p : Parser α) (subject : Text) (start : Nat) : Eval (RunResult α) :=
  p.runIn (Env.new subject) start

/-- Runs from a position of a subject, skipping. -/
def runFromSkipping (p : Parser α) (subject : Text) (start : Nat) (skip : Pattern) :
    Eval (RunResult α) :=
  p.runInE (skip.scan.map fun scan => (Env.new subject).withSkip (some scan)) start

/-- Runs from the beginning of a subject, skipping. -/
def runSkipping (p : Parser α) (subject : Text) (skip : Pattern) : Eval (RunResult α) :=
  p.runFromSkipping subject 0 skip

/-- Runs as options say. -/
def runWith (p : Parser α) (subject : Text) (options : ParseOptions) : Eval (RunResult α) :=
  p.runInE (options.env subject) options.start.toNat

end Parser

end Descent
