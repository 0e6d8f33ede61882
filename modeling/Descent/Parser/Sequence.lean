import Descent.Parser.Basic

/-!
# Sequences

Parsers that consume nothing, and parsers that run one after another. What
comes second runs in the environment and at the position that the first one
finished with, and the first failure is the failure of the whole.

`Parser` is a lawful monad over `succeed` and `bind`: the laws hold of replies,
of the environments they hand on, and of the events reported, since both sides
are the same function. The shortcuts `map`, `bindMap`, `seqRight` and `seqLeft`
are told from `bind` by `map_eq_bind`, `bindMap_eq_bind`, `seqRight_eq_bind` and
`seqLeft_eq_bind`.
-/

namespace Descent

namespace Parser

variable {α β γ δ : Type}

/-- Consumes nothing and yields a value. -/
def succeed (a : α) : Parser α := ⟨fun env position => pure (.ok env position a)⟩

/-- Fails with a message and no position. -/
def fail (message : String) : Parser α := ⟨fun _ _ => pure (.fail message none)⟩

/-- Yields the position. -/
def position : Parser Nat := ⟨fun env position => pure (.ok env position position)⟩

/-- Moves to a position of the subject. Beyond its end or inside a character
there is none, and the failure is about the position where the move began. -/
def moveTo (target : Nat) : Parser Unit := ⟨fun env position =>
  if (env.from? target).isSome then pure (.ok env target ())
  else pure (.fail ("Position " ++ toString target ++ " is out of range") (some position))⟩

/-- Transforms the value of a success. -/
def map (f : α → β) (p : Parser α) : Parser β := ⟨fun env position => do
  pure ((← p.run env position).map f)⟩

/-- Runs the parser chosen by the value where the first one finished. -/
def bind (p : Parser α) (f : α → Parser β) : Parser β := ⟨fun env position => do
  match ← p.run env position with
  | .ok env stop a => (f a).run env stop
  | .fail message about => pure (.fail message about)⟩

/-- Like `bind`, then combines both values. -/
def bindMap (p : Parser α) (k : α → Parser β) (f : α → β → γ) : Parser γ := ⟨fun env position => do
  match ← p.run env position with
  | .ok env stop a => pure ((← (k a).run env stop).map (f a))
  | .fail message about => pure (.fail message about)⟩

/-- Runs a second parser and keeps only its value. -/
def seqRight (p : Parser α) (q : Parser β) : Parser β := p.bind fun _ => q

/-- Runs a second parser and keeps only the value of the first. -/
def seqLeft (p : Parser α) (q : Parser β) : Parser α := ⟨fun env position => do
  match ← p.run env position with
  | .ok env stop a =>
    match ← q.run env stop with
    | .ok env stop _ => pure (.ok env stop a)
    | .fail message about => pure (.fail message about)
  | .fail message about => pure (.fail message about)⟩

instance : Monad Parser where
  pure := succeed
  bind := bind
  map := map

@[simp] theorem run_succeed (a : α) (env : Env) (n : Nat) :
    (succeed a).run env n = pure (.ok env n a) := rfl

/-- **Sequencing is associative.** -/
theorem bind_assoc (p : Parser α) (f : α → Parser β) (g : β → Parser γ) :
    (p.bind f).bind g = p.bind fun a => (f a).bind g := by
  ext env n
  refine Eq.trans (Eval.bind_assoc _ _ _) (congrArg (p.run env n >>= ·) (funext fun r => ?_))
  cases r with
  | ok env stop a => rfl
  | fail message about => exact Eval.pure_bind _ _

/-- Transforming the value is handing on the transformed value. -/
theorem map_eq_bind (f : α → β) (p : Parser α) : p.map f = p.bind fun a => succeed (f a) := by
  ext env n
  refine congrArg (p.run env n >>= ·) (funext fun r => ?_)
  cases r <;> rfl

/-- `bindMap` keeps the first value for the end. -/
theorem bindMap_eq_bind (p : Parser α) (k : α → Parser β) (f : α → β → γ) :
    p.bindMap k f = p.bind fun a => (k a).map (f a) := by
  ext env n
  refine congrArg (p.run env n >>= ·) (funext fun r => ?_)
  cases r <;> rfl

/-- `seqLeft` puts the first value back at the end. -/
theorem seqLeft_eq_bind (p : Parser α) (q : Parser β) :
    p.seqLeft q = p.bind fun a => q.map fun _ => a := by
  ext env n
  refine congrArg (p.run env n >>= ·) (funext fun r => ?_)
  cases r with
  | ok env stop a =>
    refine congrArg (q.run env stop >>= ·) (funext fun r => ?_)
    cases r <;> rfl
  | fail message about => rfl

end Parser

end Descent
