import Descent.Parser.Recursion

/-!
# Owners and handles

A recursive grammar of one rule whose builder gave its forward handle away. The
grammar belongs to the parser that was returned for it; who keeps the handle
keeps nothing alive. A history of the two is a list of `Step`s, and the state
between the steps says whether a handle was given away yet and what is known
about the knot.

The handle is given away when the rule is first built, so before the first run
there is none; and when the owner is dropped, the scope of the knot ends.
-/

namespace Descent

namespace Ownership

variable {α : Type}

/-- What is done with a parser and a kept handle. -/
inductive Step where
  /-- The parser is run. -/
  | run (subject : Text)
  /-- The parser is dropped. -/
  | drop
  /-- The handle is run. -/
  | handle (subject : Text)
  deriving Repr, DecidableEq

/-- What a step answers. -/
inductive Answer (α : Type) where
  | reply (outcome : Outcome (Reply α))
  | dropped
  | noHandle

/-- The state between two steps. -/
structure State where
  /-- Whether the handle was given away. -/
  given : Bool
  knots : Knots

/-- Before the first step. -/
def State.initial : State := ⟨false, .initial⟩

/-- Whether an event gives the handle away. -/
def givesAway : Event → Bool
  | .ruleBuilt .. => true
  | _ => false

/-- The state after an evaluation. -/
def State.after (state : State) : Outcome α → State
  | .done _ log knots => ⟨state.given || log.any givesAway, knots⟩
  | .fault _ log knots => ⟨state.given || log.any givesAway, knots⟩
  | .exhausted => state

/-- Parses a subject from its beginning. -/
def parse (p : Parser α) (subject : Text) (budget : Nat) (state : State) : State × Answer α :=
  let outcome := p.run (Env.new subject) 0 budget state.knots
  (state.after outcome, .reply outcome)

/-- One step in a history of a knot. -/
def step (knot : Knot fun _ : Unit => α) (budget : Nat) (state : State) :
    Step → State × Answer α
  | .run subject =>
    if knot.name.scope ∈ state.knots.live then parse (knot.entry ()) subject budget state
    else (state, .dropped)
  | .drop =>
    (⟨state.given, { state.knots with
      live := state.knots.live.filter (· != knot.name.scope) }⟩, .dropped)
  | .handle subject =>
    if state.given then parse (knot.handle ()) subject budget state else (state, .noHandle)

/-- **The answers of a history.** -/
def history (knot : Knot fun _ : Unit => α) (budget : Nat) :
    State → List Step → List (Answer α)
  | _, [] => []
  | state, s :: steps =>
    let (state, answer) := step knot budget state s
    answer :: history knot budget state steps

end Ownership

end Descent
