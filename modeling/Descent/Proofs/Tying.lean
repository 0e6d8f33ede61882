import Descent.Parser.Recursion
import Descent.Proofs.Evaluation

/-!
# Tying a grammar

The first call of a recursive grammar ties it. If its rules can be built from
their handles, tying is done, and nothing but the fact that it was done is
different afterwards (`Knot.tie_done`); a run may forget about it. Then a call
is what the rule makes of the handles with one call less to spend
(`Knot.yields_call`), and a handle is a call of a grammar that is alive.

What a run reports about tying depends on what was tied before it. What it
reports besides are its remarks (`remarks`).
-/

namespace Descent

/-- The event says nothing about recursive grammars. -/
def Event.IsRemark : Event → Prop
  | .materializing _ | .ruleBuilt _ _ => False
  | _ => True

instance : DecidablePred Event.IsRemark
  | .materializing _ | .ruleBuilt _ _ => isFalse id
  | .runEntered _ _ | .runFinished _ | .alternativeFailed _ _ _ | .leftFailed _ _
  | .noDelimiter _ | .noAdvance _ | .noItem _ _ | .keywordContinues _ _ => isTrue trivial

/-- **What is reported apart from tying**, in order. -/
def remarks (log : List Event) : List Event := log.filter fun e => decide e.IsRemark

@[simp] theorem remarks_nil : remarks [] = [] := rfl

@[simp] theorem remarks_append (log log' : List Event) :
    remarks (log ++ log') = remarks log ++ remarks log' := List.filter_append log log'

namespace Knot

variable {ι : Type} {τ : ι → Type} {grammar : Knot τ}

/-- The handles inside a grammar, with so many calls to spend. -/
def handlesAt (grammar : Knot τ) (budget : Nat) (j : ι) : Parser (τ j) := ⟨fun env position => do
  grammar.ensureLive
  grammar.call budget j env position⟩

/-- A nonterminal has what the run has to spend. -/
theorem entry_run_apply (i : ι) (e : Env) (n b : Nat) (k : Knots) :
    (grammar.entry i).run e n b k = grammar.call b i e n b k :=
  Outcome.after_nil _

/-- A grammar that is alive does not stop the run, and is left as it is. -/
theorem ensureLive_eq_done_iff {n : Nat} {k k' : Knots} {log : List Event} :
    grammar.ensureLive n k = .done () log k'
      ↔ grammar.name.scope ∈ k.live ∧ log = [] ∧ k' = k := by
  by_cases hlive : grammar.name.scope ∈ k.live
  · simp [ensureLive, Eval.bind_apply, Eval.knots, Outcome.after, hlive, eq_comm]
  · simp [ensureLive, Eval.bind_apply, Eval.knots, Outcome.after, hlive, Eval.stop]

variable {handles : (j : ι) → Parser (τ j)}

/-- Building the rules reports so and nothing else, and changes nothing. -/
theorem buildRules_done (hrules : ∀ i, ∃ p, grammar.rule i handles = .ok p) (index : Nat)
    (is : List ι) (n : Nat) (l : Knots) :
    ∃ log, remarks log = [] ∧ grammar.buildRules handles index is n l = .done () log l := by
  induction is generalizing index with
  | nil => exact ⟨[], rfl, rfl⟩
  | cons i is ih =>
    obtain ⟨p, hp⟩ := hrules i
    obtain ⟨log, hlog, hrest⟩ := ih (index + 1)
    refine ⟨[.ruleBuilt grammar.name index] ++ log, hlog,
      Eval.bind_eq_done_iff.mpr ⟨(), _, l, log, rfl, ?_, rfl⟩⟩
    rw [hp]
    exact Eval.bind_eq_done_iff.mpr ⟨p, [], l, log, rfl, hrest, rfl⟩

/-- **A grammar whose rules can be built can be tied**, and nothing else is changed or
remarked. -/
theorem tie_done (hrules : ∀ i, ∃ p, grammar.rule i handles = .ok p) (n : Nat) (l : Knots) :
    ∃ log tied, remarks log = []
      ∧ grammar.tie handles n l = .done () log ⟨l.nextScope, l.live, tied⟩ := by
  by_cases htied : grammar.name ∈ l.tied
  · refine ⟨[], l.tied, rfl, ?_⟩
    simp [tie, Eval.bind_apply, Eval.knots, Outcome.after, htied]
  · obtain ⟨log, hlog, hbuild⟩ := buildRules_done hrules 0 grammar.order n l
    refine ⟨.materializing grammar.name :: log, grammar.name :: l.tied, hlog, ?_⟩
    simp [tie, Eval.bind_apply, Eval.knots, Eval.emit, Eval.modifyKnots, Outcome.after, htied,
      hbuild]

/-! ## Calls that are done -/

variable {scope b n : Nat} {e : Env} {i : ι} {Q : Reply (τ i) → Prop}

/-- **A call is what its rule makes** of the handles with one call less to spend. -/
theorem yields_call (hrules : ∀ i, ∃ p, grammar.rule i (grammar.handlesAt b) = .ok p)
    {p : Parser (τ i)} (hp : grammar.rule i (grammar.handlesAt b) = .ok p)
    (h : (p.run e n).Yields scope Q) : (grammar.call (b + 1) i e n).Yields scope Q := by
  have htie : (grammar.tie (grammar.handlesAt b)).Yields scope fun _ => True := by
    intro n k hk
    obtain ⟨log, tied, -, hdone⟩ := tie_done hrules n k
    exact ⟨(), log, _, hdone, trivial, hk⟩
  refine .bind htie fun _ _ => ?_
  show (Eval.ofExcept (grammar.rule i (grammar.handlesAt b)) >>= fun p =>
    Eval.withBudget b (p.run e n)).Yields scope Q
  rw [hp, Eval.ofExcept, Eval.pure_bind]
  exact .withBudget h

/-- A handle is a call, where the grammar is alive. -/
theorem yields_handle (h : (grammar.call b i e n).Yields grammar.name.scope Q) :
    ((grammar.handlesAt b i).run e n).Yields grammar.name.scope Q := by
  have hlive : grammar.ensureLive.Yields grammar.name.scope fun _ => True :=
    fun n k hk => ⟨(), [], k, ensureLive_eq_done_iff.mpr ⟨hk, rfl, rfl⟩, trivial, hk⟩
  exact .bind hlive fun _ _ => h

end Knot

end Descent
