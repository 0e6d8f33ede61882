import Descent.Proofs.Calculator
import Descent.Proofs.Construction
import Descent.Proofs.Lines

/-!
# What the calculator complains about

A line that is no expression is told one of three things (`Calculator.IsComplaint`): a
parenthesis is missing where a factor was to begin, or is not closed, or the line goes
on behind its expression. What was tried before that is not heard of. That no number
stood there is forgotten for the parenthesis that was looked for next, and what ends a
repetition is no failure at all.

`Parser.FailsAs` says so of a parser wherever it is called, and passes through the
combinators of the grammar. Nothing is asked of their environment: what is skipped
changes where the calculator fails, but not what it says.
-/

namespace Descent

/-- A failure, if it is one, is as described. -/
def Reply.FailsAs {α : Type} (M : String → Option Nat → Prop) : Reply α → Prop
  | .ok .. => True
  | .fail message about => M message about

namespace Parser

variable {α β δ : Type} {M : String → Option Nat → Prop} {p q : Parser α}

/-- **Failures of the parser are as described**, wherever it is called. -/
def FailsAs (M : String → Option Nat → Prop) (p : Parser α) : Prop :=
  ∀ e n, (p.run e n).Ensures (Reply.FailsAs M)

namespace FailsAs

/-- **What comes second**, where a failure of the first part is the failure of the whole. -/
theorem bindReply {x : Eval (Reply α)} {f : Reply α → Eval (Reply β)}
    (hx : x.Ensures (Reply.FailsAs M))
    (hok : ∀ e stop a, (f (.ok e stop a)).Ensures (Reply.FailsAs M))
    (hfail : ∀ message about, f (.fail message about) = pure (.fail message about)) :
    (x >>= f).Ensures (Reply.FailsAs M) := by
  refine hx.bind fun r hr => ?_
  cases r with
  | ok e stop a => exact hok e stop a
  | fail message about =>
    rw [hfail]
    exact .pure hr

theorem token (read : Reader) {message : String} (h : ∀ n, M message (some n)) :
    FailsAs M (Parser.token read message) := by
  refine fun e n => .bind_any fun start => ?_
  cases (e.from? start).bind read with
  | some m => exact .pure trivial
  | none => exact .pure (h n)

theorem endWith {message : String} (h : ∀ n, M message (some n)) :
    FailsAs M (Parser.endWith message) := by
  refine fun e n => .bind_any fun start => ?_
  split
  · exact .pure trivial
  · exact .pure (h n)

theorem seqRight {r : Parser β} (hp : FailsAs M p) (hr : FailsAs M r) :
    FailsAs M (p.seqRight r) :=
  fun e n => bindReply (hp e n) (fun e stop _ => hr e stop) fun _ _ => rfl

theorem seqLeft {r : Parser β} (hp : FailsAs M p) (hr : FailsAs M r) : FailsAs M (p.seqLeft r) :=
  fun e n => bindReply (hp e n)
    (fun e stop _ => bindReply (hr e stop) (fun _ _ _ => .pure trivial) fun _ _ => rfl)
    fun _ _ => rfl

/-- A failure of the first alternative is not heard of. -/
theorem orElse (hq : FailsAs M q) : FailsAs M (p.orElse q) := by
  refine fun e n => .bind_any fun r => ?_
  cases r with
  | ok e' stop a => exact .pure trivial
  | fail message about => exact .bind_any fun _ => hq e n

/-- A repetition fails as its first item does. -/
theorem foldSep (hp : FailsAs M p) (delimiter : Parser δ) (f : α → δ → α → α) :
    FailsAs M (p.foldSep delimiter f) := by
  rw [foldSep_eq_repetition]
  refine fun e n => bindReply (hp e n) (fun e stop a => .bind_any fun chain => ?_) fun _ _ => rfl
  obtain ⟨e', stop', hreply⟩ := Round.exists_reply_eq_ok e stop chain (Round.foldLeft f a chain)
  rw [hreply]
  exact .pure trivial

end FailsAs

end Parser

/-- **A call fails as the rules do.** The induction is on the calls that are left. -/
theorem Knot.call_failsAs {ι : Type} {τ : ι → Type} {grammar : Knot τ}
    {M : String → Option Nat → Prop}
    (hrules : ∀ handles : Parsers τ, (∀ j, (handles j).FailsAs M) →
      ∀ i p, grammar.rule i handles = .ok p → p.FailsAs M) (b : Nat) (i : ι) :
    (Parser.mk (grammar.call b i)).FailsAs M := by
  induction b generalizing i with
  | zero => exact fun _ _ => .giveUp
  | succ b ih =>
    intro e n
    have hhandles : ∀ j, (grammar.handlesAt b j).FailsAs M :=
      fun j e n => .bind_any fun _ => ih j e n
    refine .bind_any fun _ => .bind (.ofExcept fun p hp => hp) fun p hp => ?_
    exact .withBudget (hrules _ hhandles i p hp e n)

namespace Calculator

/-- **What is told of a line that is no expression**, and of which position. -/
inductive IsComplaint : String → Option Nat → Prop where
  /-- No factor begins here. -/
  | unopened (n : Nat) : IsComplaint "Does not match (" (some n)
  /-- A parenthesis is not closed. -/
  | unclosed (n : Nat) : IsComplaint "Does not match )" (some n)
  /-- Something is left. -/
  | unended (n : Nat) : IsComplaint "Not reached to end of parsing" (some n)

theorem factor_failsAs {sum : Parser Float} (h : sum.FailsAs IsComplaint) :
    (factor sum).FailsAs IsComplaint :=
  .orElse (.seqLeft (.seqRight (.token _ .unopened) h) (.token _ .unclosed))

theorem rule_failsAs (handles : Parsers (Parser.Types2 Float Float))
    (h : ∀ j, (handles j).FailsAs IsComplaint) (i : Fin 2)
    (p : Parser (Parser.Types2 Float Float i)) (hp : grammar.rule i handles = .ok p) :
    p.FailsAs IsComplaint := by
  match i, p, hp with
  | 0, p, hp =>
    obtain rfl := Except.ok.inj ((sum_eq _).symm.trans hp)
    exact .foldSep (.foldSep (h 1) _ _) _ _
  | 1, p, hp =>
    obtain rfl := Except.ok.inj hp
    exact factor_failsAs (h 0)

/-- **The calculator has three complaints**, and each of them has a position. -/
theorem parserAt_failsAs (b : Nat) : (parserAt b).FailsAs IsComplaint :=
  .seqLeft (Knot.call_failsAs rule_failsAs b _) (.endWith .unended)

/-- A complaint is told on one line. -/
theorem IsComplaint.onOneLine {message : String} {about : Option Nat}
    (h : IsComplaint message about) : OnOneLine (failureText message about) := by
  have hat : OnOneLine " at position " := by decide
  cases h with
  | unopened n => exact (OnOneLine.append (by decide) hat).append (.nat n)
  | unclosed n => exact (OnOneLine.append (by decide) hat).append (.nat n)
  | unended n => exact (OnOneLine.append (by decide) hat).append (.nat n)

end Calculator

end Descent
