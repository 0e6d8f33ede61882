import Descent.Parser.Choice
import Descent.Parser.Token

/-!
# Repetition

Items with delimiters between them. A repetition is a first item and then
rounds, each a delimiter and an item, and a round counts only if it ends
strictly beyond the position it began at. The repetition ends before the first
round that fails or does not advance, and what that round consumed is given
back: no delimiter is left dangling.

**The two folds.** Folding from the left needs the value so far and nothing
else (`Parser.accumulate`). Folding from the right cannot begin before the last
item is found: every item waits, with the delimiter after it, for what follows
it, and the waiting ones are combined from the last to the first when the
rounds are over (`Parser.collect`, `Parser.replay`). The two are loops of their
own, over the same rounds.

**Why they end.** Positions are machine words, so at most `maxPosition` rounds
can advance. That many are allowed for, the loops count them down, and the last
one can no longer advance. No recursion budget is spent.
-/

namespace Descent

/-- The largest position: positions are words of 64 bits. -/
def maxPosition : Nat := 0xFFFFFFFFFFFFFFFF

/-- One delimiter and the item after it, and where they end. -/
structure Round (δ α : Type) where
  env : Env
  stop : Nat
  delimiter : δ
  item : α

namespace Parser

variable {α δ : Type}

/-- Whether a round goes on. -/
def advances (start stop : Nat) : Bool := start < stop && stop ≤ maxPosition

/-- One round of a repetition; `none`, with the reason reported, when the
repetition ends here. -/
def round (item : Parser α) (delimiter : Parser δ) (env : Env) (start : Nat) :
    Eval (Option (Round δ α)) := do
  match ← delimiter.run env start with
  | .fail .. =>
    Eval.emit (.noDelimiter start)
    pure none
  | .ok env middle d =>
    match ← item.run env middle with
    | .fail message _ =>
      Eval.emit (.noItem start message)
      pure none
    | .ok env stop a =>
      if advances start stop then pure (some ⟨env, stop, d, a⟩)
      else
        Eval.emit (.noAdvance start)
        pure none

/-- **The loop of a left fold**: the value so far takes in the delimiter and the
item of every further round, at most so many. -/
def accumulate (item : Parser α) (delimiter : Parser δ) (f : α → δ → α → α) :
    Nat → Env → Nat → α → Eval (Reply α)
  | left, env, start, acc => do
    match ← round item delimiter env start with
    | none => pure (.ok env start acc)
    | some r =>
      match left with
      | 0 => pure (.ok env start acc)
      | left + 1 => accumulate item delimiter f left r.env r.stop (f acc r.delimiter r.item)

/-- The items that wait, each with the delimiter after it, combined with the last
item from the one that came last to the one that came first. -/
def replay (f : α → δ → α → α) (last : α) (pending : Array (α × δ)) : α :=
  pending.reverse.foldl (fun acc waiting => f waiting.1 waiting.2 acc) last

/-- **The loop of a right fold**: in every further round, at most so many, the last
item goes to those that wait, with the delimiter of the round, and the item of the
round is the last one. -/
def collect (item : Parser α) (delimiter : Parser δ) (f : α → δ → α → α) :
    Nat → Env → Nat → Array (α × δ) → α → Eval (Reply α)
  | left, env, start, pending, last => do
    match ← round item delimiter env start with
    | none => pure (.ok env start (replay f last pending))
    | some r =>
      match left with
      | 0 => pure (.ok env start (replay f last pending))
      | left + 1 =>
        collect item delimiter f left r.env r.stop (pending.push (last, r.delimiter)) r.item

/-- Items with delimiters between them, folded from the left. -/
def foldSep (item : Parser α) (delimiter : Parser δ) (f : α → δ → α → α) : Parser α :=
  ⟨fun env start => do
    match ← item.run env start with
    | .ok env stop first => accumulate item delimiter f (maxPosition - stop) env stop first
    | .fail message about => pure (.fail message about)⟩

/-- Items with delimiters between them, folded from the right. -/
def foldSepRight (item : Parser α) (delimiter : Parser δ) (f : α → δ → α → α) : Parser α :=
  ⟨fun env start => do
    match ← item.run env start with
    | .ok env stop first => collect item delimiter f (maxPosition - stop) env stop #[] first
    | .fail message about => pure (.fail message about)⟩

/-- One or more adjacent items, folded from the left. The delimiter is the empty
text: it is found wherever text can be read, after what is skipped. -/
def foldMany1 (item : Parser α) (f : α → α → α) : Parser α :=
  item.foldSep (string "") fun acc _ a => f acc a

/-- Any number of adjacent items, folded from the left; the default when there is none. -/
def foldMany (item : Parser α) (f : α → α → α) (default : α) : Parser α :=
  (item.foldMany1 f).withDefault default

end Parser

end Descent
