import Descent.Fault

/-!
# Evaluation

What running a parser may do besides computing its reply: report events, tie
recursive grammars and remember that they are tied, stop with a fault, or be
given up because a recursion went deeper than its budget.

* An `Event` is a remark that a run leaves behind. The log is written and never
  read, so a computation can neither see nor change what was reported before it.
* A `KnotName` names a recursive grammar. Its scope is the stretch of the run
  that owns it; `Knots` records which scopes are alive and which grammars are
  tied already.
* A `Fault` stops the run.
* The budget bounds how deep recursive grammars call themselves. It is the only
  way to `Outcome.exhausted`, so "the run returns" is "some budget is enough".

`Eval` is a lawful monad, which is what lets parsers be rearranged by equations.
-/

namespace Descent

/-- The name of a recursive grammar: the scope that owns it and its place there. -/
structure KnotName where
  scope : Nat
  path : List Nat
  deriving Repr, DecidableEq

/-- The name of the `i`-th part below a place. -/
def KnotName.child (name : KnotName) (i : Nat) : KnotName := ⟨name.scope, i :: name.path⟩

/-- A remark that a run leaves behind. -/
inductive Event where
  /-- A checked run begins; written before the start is checked. -/
  | runEntered (start length : Nat)
  /-- A checked run ends. -/
  | runFinished (ok : Bool)
  /-- An alternative of an ordered choice failed. -/
  | alternativeFailed (index position : Nat) (error : String)
  /-- The first of two alternatives failed. -/
  | leftFailed (position : Nat) (error : String)
  /-- A repetition ends since no delimiter follows. -/
  | noDelimiter (position : Nat)
  /-- A repetition ends since a round did not advance. -/
  | noAdvance (position : Nat)
  /-- A repetition ends since no item follows the delimiter. -/
  | noItem (position : Nat) (error : String)
  /-- A keyword was found where a longer word stands. -/
  | keywordContinues (position : Nat) (keyword : String)
  /-- A recursive grammar is about to be tied. -/
  | materializing (knot : KnotName)
  /-- A rule of a recursive grammar is being built. -/
  | ruleBuilt (knot : KnotName) (index : Nat)
  deriving Repr, DecidableEq

/-- What is remembered about recursive grammars during and between runs. -/
structure Knots where
  /-- The next scope to be opened. -/
  nextScope : Nat
  /-- The scopes whose grammars are alive. -/
  live : List Nat
  /-- The grammars that are tied. -/
  tied : List KnotName
  deriving Repr, DecidableEq

/-- Before the first run: one scope, for the grammar that is run, and nothing tied. -/
def Knots.initial : Knots := ⟨1, [0], []⟩

/-- How an evaluation ends. -/
inductive Outcome (α : Type) where
  | done (value : α) (log : List Event) (knots : Knots)
  | fault (cause : Fault) (log : List Event) (knots : Knots)
  | exhausted
  deriving Repr, DecidableEq

/-- A computation with a recursion budget that leaves a log and ties knots. -/
def Eval (α : Type) : Type := Nat → Knots → Outcome α

namespace Outcome

variable {α : Type}

/-- The log of an earlier part put in front. -/
def after (earlier : List Event) : Outcome α → Outcome α
  | done a log k => done a (earlier ++ log) k
  | fault f log k => fault f (earlier ++ log) k
  | exhausted => exhausted

@[simp] theorem after_nil (o : Outcome α) : o.after [] = o := by
  cases o <;> rfl

@[simp] theorem after_after (a b : List Event) (o : Outcome α) :
    (o.after b).after a = o.after (a ++ b) := by
  cases o <;> simp [after]

end Outcome

namespace Eval

variable {α β γ : Type}

/-- Nothing but a value. -/
protected def pure (a : α) : Eval α := fun _ knots => .done a [] knots

/-- One computation after another; the logs are joined in order. -/
protected def bind (x : Eval α) (f : α → Eval β) : Eval β := fun budget knots =>
  match x budget knots with
  | .done a log knots => (f a budget knots).after log
  | .fault cause log knots => .fault cause log knots
  | .exhausted => .exhausted

instance : Monad Eval where
  pure := Eval.pure
  bind := Eval.bind

/-- Leaves one event in the log. -/
def emit (e : Event) : Eval Unit := fun _ knots => .done () [e] knots

/-- Stops the run. -/
def stop (cause : Fault) : Eval α := fun _ knots => .fault cause [] knots

/-- The value, or the end of the run. -/
def ofExcept : Except Fault α → Eval α
  | .ok a => pure a
  | .error cause => stop cause

/-- Gives up. -/
def giveUp : Eval α := fun _ _ => .exhausted

/-- The recursion budget. -/
def budget : Eval Nat := fun budget knots => .done budget [] knots

/-- Runs with another recursion budget. -/
def withBudget (n : Nat) (x : Eval α) : Eval α := fun _ knots => x n knots

/-- What is known about recursive grammars. -/
def knots : Eval Knots := fun _ knots => .done knots [] knots

/-- Changes what is known about recursive grammars. -/
def modifyKnots (f : Knots → Knots) : Eval Unit := fun _ knots => .done () [] (f knots)

/-- Opens a scope of its own for grammars that are built during the run. -/
def openScope : Eval Nat := fun _ knots =>
  .done knots.nextScope [] ⟨knots.nextScope + 1, knots.nextScope :: knots.live, knots.tied⟩

/-- Ends a scope: its grammars are gone. -/
def closeScope (scope : Nat) : Eval Unit := modifyKnots fun knots =>
  ⟨knots.nextScope, knots.live.filter (· != scope), knots.tied.filter (·.scope != scope)⟩

theorem bind_apply (x : Eval α) (f : α → Eval β) (n : Nat) (k : Knots) :
    (x >>= f) n k = match x n k with
      | .done a log k => (f a n k).after log
      | .fault cause log k => .fault cause log k
      | .exhausted => .exhausted := rfl

@[simp] theorem pure_apply (a : α) (n : Nat) (k : Knots) : (pure a : Eval α) n k = .done a [] k :=
  rfl

/-- A value handed on is a value put in. -/
@[simp] theorem pure_bind (a : α) (f : α → Eval β) : (pure a >>= f : Eval β) = f a := by
  funext n k
  simp [bind_apply]

/-- Handing the value on changes nothing. -/
@[simp] theorem bind_pure (x : Eval α) : (x >>= fun a => pure a) = x := by
  funext n k
  rw [bind_apply]
  cases x n k <;> simp [Outcome.after]

/-- Sequencing is associative: joining logs is. -/
theorem bind_assoc (x : Eval α) (f : α → Eval β) (g : β → Eval γ) :
    (x >>= f >>= g) = (x >>= fun a => f a >>= g) := by
  funext n k
  simp only [bind_apply]
  cases x n k with
  | done a log k =>
    simp only []
    cases f a n k with
    | done b log' k => simp [Outcome.after_after, Outcome.after.eq_1]
    | fault cause log' k => rfl
    | exhausted => rfl
  | fault cause log k => rfl
  | exhausted => rfl

instance : LawfulMonad Eval :=
  LawfulMonad.mk' Eval (fun x => bind_pure x) (fun a f => pure_bind a f)
    (fun x f g => bind_assoc x f g)

end Eval

end Descent
