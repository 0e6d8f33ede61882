import Descent.Grammar.Build

/-!
# Sessions

What can be asked of a grammar that is given as data: to be run in one of the
ways that parsers are run, and to parse in an environment that is changed step
by step. What a run leaves behind is the state of the recursive grammars and
nothing else, so a session is a sequence of evaluations that hand it on.
-/

namespace Descent

/-- How a run makes its environment and where it starts. -/
inductive Entry where
  | text
  | starting (start : Nat)
  | skipping (skip : Scanner)
  | fromSkipping (start : Nat) (skip : Scanner)
  | options (options : ParseOptions)
  /-- The options are still to be read. -/
  | optionsText (text : String)
  | inEnv (start : Nat) (skip follow : Scanner)
  /-- Nothing is checked and nothing is reported about the run itself. -/
  | unchecked (start : Nat) (skip follow : Scanner)

/-- The parser of a whole grammar. -/
def Grammar.parser (p : Grammar) : Except Fault (Parser Value) :=
  (p.build [] ⟨0, []⟩).map (· [])

/-- A whole grammar as a parser in a scope that does not end. -/
def Grammar.lasting (p : Grammar) : Eval (Parser Value) := do
  let scope ← Eval.openScope
  Eval.ofExcept ((p.build [] ⟨scope, []⟩).map (· []))

/-- The pattern of a scanner outside of all grammars. -/
def Scanner.pattern? : Scanner → Eval (Option Pattern)
  | absent => pure none
  | text source => pure (some (.text source))
  | grammar p => return some (.parser ((← p.lasting).map Value.text))

/-- The environment of a subject with scanners, the skip first. -/
def Scanner.env (subject : Text) (skip follow : Scanner) : Eval Env := do
  let skip ← Grammar.scanFor [] [] skip
  let follow ← Grammar.scanFor [] [] follow
  return ⟨subject, skip, follow⟩

/-- A grammar that refers to itself by a name, as a knot. -/
def Grammar.knot (p : Grammar) (x : String) : Knot fun _ : Unit => Value :=
  let body := p.build [] ⟨0, [0]⟩
  Parser.knot1 ⟨0, []⟩ fun h => body.map (· [(x, h)])

/-- **A run of a parser.** -/
def Entry.run (p : Parser Value) (subject : Text) : Entry → Eval (RunResult Value)
  | text => return .ok (← p.runText subject)
  | starting start => p.runFrom subject start
  | skipping skip => do
    match ← skip.pattern? with
    | some pattern => p.runSkipping subject pattern
    | none => p.runFrom subject 0
  | fromSkipping start skip => do
    match ← skip.pattern? with
    | some pattern => p.runFromSkipping subject start pattern
    | none => p.runFrom subject start
  | options o => p.runWith subject o
  | optionsText t =>
    match ParseOptions.record.ofText t with
    | .ok o => p.runWith subject o
    | .error e => pure (.error e)
  | inEnv start skip follow => do p.runIn (← Scanner.env subject skip follow) start
  | unchecked start skip follow => do
    return .ok (← p.run (← Scanner.env subject skip follow) start)

/-- A step in a session with an environment. -/
inductive EnvStep where
  | change (c : Change)
  | skipFrom (position : Nat)
  | display
  | parse (p : Grammar) (position : Nat)

/-- What a step answers. -/
inductive EnvAnswer where
  | changed
  | position (position : Nat)
  | displayed
  | reply (r : Reply Value)

/-- A step: its answer, and the environment after it. -/
def EnvStep.run (env : Env) : EnvStep → Eval (Env × EnvAnswer)
  | change c => return (← Grammar.apply [] [] c env, .changed)
  | skipFrom position => return (env, .position (← env.skipFrom position))
  | display => return (env, .displayed)
  | parse p position => do
    let p ← p.lasting
    return (env, .reply (← p.run env position))

end Descent
