import Descent.Parser.Basic

/-!
# Recursive grammars

A recursive grammar is a family of rules, each of which builds the parser of
its nonterminal from forward handles to all of them. A `Knot` is such a family
with a name. `Knot.entry` is the parser that a caller gets; the handles inside
the grammar are the same parser with one call less to spend, so a run is a
recursion on the budget and is total.

**Tying.** The first call of any nonterminal ties the knot: it reports so,
calls the builders of all rules in order, each once, and remembers that it did.
A builder that fails stops the run there and leaves the knot untied. Later
calls find the knot tied and report nothing. What a builder makes depends only
on the handles, so nothing needs to be stored besides the fact that it is tied.

**Life.** A knot lives as long as the scope in its name. An entry keeps it
alive; a forward handle does not, and is a fault once the scope is closed.
-/

namespace Descent

/-- A family of mutually recursive rules, one for each nonterminal. -/
structure Knot {ι : Type} (τ : ι → Type) where
  /-- What the knot is known by. -/
  name : KnotName
  /-- The nonterminals in the order in which their rules are built. -/
  order : List ι
  /-- What a rule builds from handles to all nonterminals. -/
  rule : (i : ι) → ((j : ι) → Parser (τ j)) → Except Fault (Parser (τ i))

namespace Knot

variable {ι : Type} {τ : ι → Type}

/-- Builds the rules of some nonterminals, numbered from `index`, and drops them. -/
def buildRules (knot : Knot τ) (handles : (j : ι) → Parser (τ j)) : Nat → List ι → Eval Unit
  | _, [] => pure ()
  | index, i :: rest => do
    Eval.emit (.ruleBuilt knot.name index)
    let _ ← Eval.ofExcept (knot.rule i handles)
    buildRules knot handles (index + 1) rest

/-- Ties the knot if it is not tied yet. -/
def tie (knot : Knot τ) (handles : (j : ι) → Parser (τ j)) : Eval Unit := do
  if knot.name ∈ (← Eval.knots).tied then pure ()
  else
    Eval.emit (.materializing knot.name)
    knot.buildRules handles 0 knot.order
    Eval.modifyKnots fun k => ⟨k.nextScope, k.live, knot.name :: k.tied⟩

/-- Stops the run if the knot is gone. -/
def ensureLive (knot : Knot τ) : Eval Unit := do
  if knot.name.scope ∈ (← Eval.knots).live then pure () else Eval.stop .releasedGrammar

/-- A nonterminal of the knot with a number of nested calls to spend. -/
def call (knot : Knot τ) : Nat → (i : ι) → Env → Nat → Eval (Reply (τ i))
  | 0, _, _, _ => Eval.giveUp
  | budget + 1, i, env, position => do
    let handles : (j : ι) → Parser (τ j) := fun j => ⟨fun env position => do
      knot.ensureLive
      knot.call budget j env position⟩
    knot.tie handles
    let p ← Eval.ofExcept (knot.rule i handles)
    Eval.withBudget budget (p.run env position)

/-- **A nonterminal of the knot**, as the one who owns the knot gets it. -/
def entry (knot : Knot τ) (i : ι) : Parser (τ i) := ⟨fun env position => do
  knot.call (← Eval.budget) i env position⟩

/-- A nonterminal of the knot, as one gets it who does not own the knot. -/
def handle (knot : Knot τ) (i : ι) : Parser (τ i) := ⟨fun env position => do
  knot.ensureLive
  knot.call (← Eval.budget) i env position⟩

end Knot

namespace Parser

variable {α β γ : Type}

/-- A rule among rules for values of one type. -/
abbrev Rule (α : Type) := List (Parser α) → Except Fault (Parser α)

/-- The knot of a list of rules. -/
def knotOf (name : KnotName) (rules : List (Rule α)) :
    Knot fun _ : Fin rules.length => α where
  name := name
  order := List.finRange rules.length
  rule := fun i handles => rules.get i ((List.finRange rules.length).map handles)

/-- **Any number of mutually recursive parsers**, all of which are returned. -/
def letrecMany (name : KnotName) (rules : List (Rule α)) : List (Parser α) :=
  (List.finRange rules.length).map (knotOf name rules).entry

/-- The knot of one rule. -/
def knot1 (name : KnotName) (rule : Parser α → Except Fault (Parser α)) :
    Knot fun _ : Unit => α where
  name := name
  order := [()]
  rule := fun _ handles => rule (handles ())

/-- **A parser that refers to itself.** -/
def letrec1 (name : KnotName) (rule : Parser α → Except Fault (Parser α)) : Parser α :=
  (knot1 name rule).entry ()

/-- The value types of two nonterminals. -/
abbrev Types2 (α β : Type) : Fin 2 → Type
  | 0 => α
  | 1 => β

/-- The knot of two rules. -/
def knot2 (name : KnotName) (rule₁ : Parser α → Parser β → Except Fault (Parser α))
    (rule₂ : Parser α → Parser β → Except Fault (Parser β)) : Knot (Types2 α β) where
  name := name
  order := [0, 1]
  rule
    | 0, handles => rule₁ (handles 0) (handles 1)
    | 1, handles => rule₂ (handles 0) (handles 1)

/-- **Two mutually recursive parsers**; the first is returned. -/
def letrec2 (name : KnotName) (rule₁ : Parser α → Parser β → Except Fault (Parser α))
    (rule₂ : Parser α → Parser β → Except Fault (Parser β)) : Parser α :=
  (knot2 name rule₁ rule₂).entry 0

/-- The value types of three nonterminals. -/
abbrev Types3 (α β γ : Type) : Fin 3 → Type
  | 0 => α
  | 1 => β
  | 2 => γ

/-- The knot of three rules. -/
def knot3 (name : KnotName)
    (rule₁ : Parser α → Parser β → Parser γ → Except Fault (Parser α))
    (rule₂ : Parser α → Parser β → Parser γ → Except Fault (Parser β))
    (rule₃ : Parser α → Parser β → Parser γ → Except Fault (Parser γ)) :
    Knot (Types3 α β γ) where
  name := name
  order := [0, 1, 2]
  rule
    | 0, handles => rule₁ (handles 0) (handles 1) (handles 2)
    | 1, handles => rule₂ (handles 0) (handles 1) (handles 2)
    | 2, handles => rule₃ (handles 0) (handles 1) (handles 2)

/-- **Three mutually recursive parsers**; the first is returned. -/
def letrec3 (name : KnotName)
    (rule₁ : Parser α → Parser β → Parser γ → Except Fault (Parser α))
    (rule₂ : Parser α → Parser β → Parser γ → Except Fault (Parser β))
    (rule₃ : Parser α → Parser β → Parser γ → Except Fault (Parser γ)) : Parser α :=
  (knot3 name rule₁ rule₂ rule₃).entry 0

end Parser

end Descent
