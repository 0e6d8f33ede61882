import Descent.Parser.Sequence

/-!
# Alternatives

Parsers that go back: whatever fails here is tried again, or forgiven, from
the position and in the environment where it began. What an alternative did to
the position and the environment before it failed is lost, which is what makes
an ordered choice a choice.

An ordered choice reports every alternative that fails, in order, and if all of
them fail the reply is that of the last one.
-/

namespace Descent

namespace Parser

variable {α β : Type}

/-- The first success among parsers numbered from `index`, or the failure of the
last of them; `failure` when there is none. -/
def firstOf (index : Nat) (failure : Reply α) : List (Parser α) → Env → Nat → Eval (Reply α)
  | [], _, _ => pure failure
  | p :: ps, env, position => do
    match ← p.run env position with
    | .ok env stop a => pure (.ok env stop a)
    | .fail message about =>
      Eval.emit (.alternativeFailed index position message)
      firstOf (index + 1) (.fail message about) ps env position

/-- **Ordered choice.** An empty list has no alternative, and says so. -/
def choice (ps : List (Parser α)) : Parser α := ⟨fun env position =>
  firstOf 0 (.fail "No alternative" (some position)) ps env position⟩

/-- Runs another parser from the beginning if this one fails. -/
def orElse (p q : Parser α) : Parser α := ⟨fun env position => do
  match ← p.run env position with
  | .ok env stop a => pure (.ok env stop a)
  | .fail message _ =>
    Eval.emit (.leftFailed position message)
    q.run env position⟩

/-- Yields a default and consumes nothing if the parser fails. -/
def withDefault (p : Parser α) (default : α) : Parser α := ⟨fun env position => do
  match ← p.run env position with
  | .ok env stop a => pure (.ok env stop a)
  | .fail .. => pure (.ok env position default)⟩

/-- Yields nothing and consumes nothing if the parser fails. -/
def optional (p : Parser α) : Parser (Option α) := (p.map some).withDefault none

/-- Matches without moving: a success ends where it began. -/
def lookahead (p : Parser α) : Parser α := ⟨fun env position => do
  match ← p.run env position with
  | .ok env _ a => pure (.ok env position a)
  | .fail message about => pure (.fail message about)⟩

/-- Succeeds without moving exactly where the parser fails. -/
def notAhead (p : Parser α) : Parser Unit := ⟨fun env position => do
  match ← p.run env position with
  | .ok .. => pure (.fail "Unexpected match" (some position))
  | .fail .. => pure (.ok env position ())⟩

/-- Fails where the parser began if the value does not satisfy a test. -/
def filter (p : Parser α) (accept : α → Bool) : Parser α := ⟨fun env position => do
  match ← p.run env position with
  | .ok env stop a =>
    if accept a then pure (.ok env stop a)
    else pure (.fail "Value is not matched" (some position))
  | .fail message about => pure (.fail message about)⟩

/-- Changes a failure. A failure has to say something: an empty message is a
fault of the one who changes it. -/
def mapFailure (p : Parser α) (f : String → Option Nat → String × Option Nat) : Parser α :=
  ⟨fun env position => do
    match ← p.run env position with
    | .ok env stop a => pure (.ok env stop a)
    | .fail message about =>
      let (message, about) := f message about
      if message.isEmpty then Eval.stop .emptyMessage else pure (.fail message about)⟩

/-- Changes the message of a failure. -/
def mapMessage (p : Parser α) (f : String → String) : Parser α :=
  p.mapFailure fun message about => (f message, about)

/-- Changes the message of a failure and the position it is about. -/
def mapMessageAt (p : Parser α) (f : String → String) (g : Option Nat → Nat) : Parser α :=
  p.mapFailure fun message about => (f message, some (g about))

/-- Replaces the message of a failure. -/
def withMessage (p : Parser α) (message : String) : Parser α := p.mapMessage fun _ => message

end Parser

end Descent
