import Descent.Parser.Sequence

/-!
# Other environments

Parsers that run in another environment or over another text, and come back:
whatever follows them goes on in the environment they were called in.

`Parser.fresh` serves grammars that are built during the run. Such a grammar
owns a scope of its own, which is closed when the parser has replied; a forward
handle that leaves the scope in an environment is dead from then on.
-/

namespace Descent

namespace Parser

variable {α β : Type}

/-- Runs in the environment that is computed from the present one; what follows
goes on in the present one. -/
def inEnv (p : Parser α) (change : Env → Env) : Parser α := ⟨fun env position => do
  pure ((← p.run (change env) position).rebase env)⟩

/-- Like `inEnv`, for an environment whose computation may report events or stop
the run. -/
def inEnvM (p : Parser α) (change : Env → Eval Env) : Parser α := ⟨fun env position => do
  pure ((← p.run (← change env) position).rebase env)⟩

/-- Runs over another text from its beginning. Nothing of the present subject is
consumed, and a failure is about the present position. -/
def onText (p : Parser α) (subject : Text) : Parser α := ⟨fun env position => do
  match ← p.run (env.withSubject subject) 0 with
  | .ok _ _ a => pure (.ok env position a)
  | .fail message _ => pure (.fail message (some position))⟩

/-- Runs a parser that is built on the spot, in a scope of its own. -/
def fresh (build : (scope : Nat) → Except Fault (Parser α)) : Parser α := ⟨fun env position => do
  let scope ← Eval.openScope
  let p ← Eval.ofExcept (build scope)
  let reply ← p.run env position
  Eval.closeScope scope
  pure reply⟩

end Parser

end Descent
