import Descent.Parser.Basic

/-!
# What an evaluation ensures

An evaluation may report events, tie grammars, stop or give up; a proof about
the values it computes wants none of that in sight. `Eval.Ensures` is the
partial reading: *whenever* the evaluation is done, its value satisfies a
predicate. It says nothing of an evaluation that is never done, and it passes
through every construct of `Eval`, so that a statement about parsers follows
their text. `Eval.Yields` is the total reading: the evaluation *is* done, at
every budget and from every state in which a scope is alive.

`Eval.bind_eq_done_iff` is the law below it: a sequence is done exactly when
both of its parts are, one after the other, with their logs joined.
-/

namespace Descent

namespace Eval

variable {α β : Type} {x : Eval α} {f : α → Eval β} {P : α → Prop} {Q : β → Prop}

/-- **A sequence is done when both of its parts are**, the second in the state
that the first one leaves. -/
theorem bind_eq_done_iff {n : Nat} {k k' : Knots} {b : β} {log : List Event} :
    (x >>= f) n k = .done b log k'
      ↔ ∃ a log₁ k₁ log₂, x n k = .done a log₁ k₁ ∧ f a n k₁ = .done b log₂ k'
          ∧ log = log₁ ++ log₂ := by
  rw [bind_apply]
  constructor
  · intro h
    cases hx : x n k with
    | done a log₁ k₁ =>
      rw [hx] at h
      simp only [] at h
      cases hf : f a n k₁ with
      | done b' log₂ k₂ =>
        rw [hf] at h
        simp only [Outcome.after, Outcome.done.injEq] at h
        obtain ⟨rfl, rfl, rfl⟩ := h
        exact ⟨a, log₁, k₁, log₂, rfl, hf, rfl⟩
      | fault cause log₂ k₂ => rw [hf] at h; exact absurd h (by simp [Outcome.after])
      | exhausted => rw [hf] at h; exact absurd h (by simp [Outcome.after])
    | fault cause log₁ k₁ => rw [hx] at h; exact absurd h (by simp)
    | exhausted => rw [hx] at h; exact absurd h (by simp)
  · rintro ⟨a, log₁, k₁, log₂, hx, hf, rfl⟩
    simp [hx, hf, Outcome.after]

/-- Whenever the evaluation is done, its value satisfies the predicate. -/
def Ensures (x : Eval α) (P : α → Prop) : Prop :=
  ∀ ⦃n : Nat⦄ ⦃k : Knots⦄ ⦃a : α⦄ ⦃log : List Event⦄ ⦃k' : Knots⦄,
    x n k = .done a log k' → P a

namespace Ensures

theorem pure {a : α} (h : P a) : (Pure.pure a : Eval α).Ensures P := by
  intro n k a' log k' he
  rw [pure_apply, Outcome.done.injEq] at he
  exact he.1 ▸ h

/-- **What the first part ensures is known when the second part begins.** -/
theorem bind (hx : x.Ensures P) (hf : ∀ a, P a → (f a).Ensures Q) : (x >>= f).Ensures Q := by
  intro n k b log k' h
  obtain ⟨a, log₁, k₁, log₂, h₁, h₂, -⟩ := bind_eq_done_iff.mp h
  exact hf a (hx h₁) h₂

/-- The value of the first part may be anything. -/
theorem bind_any (hf : ∀ a, (f a).Ensures Q) : (x >>= f).Ensures Q :=
  bind (P := fun _ => True) (fun _ _ _ _ _ _ => trivial) fun a _ => hf a

theorem mono {P' : α → Prop} (hx : x.Ensures P) (h : ∀ a, P a → P' a) : x.Ensures P' :=
  fun _ _ a _ _ he => h a (hx he)

/-- A stopped run is not done. -/
theorem stop (cause : Fault) : (Eval.stop cause : Eval α).Ensures P := by
  intro n k a log k' h
  exact absurd h (by simp [Eval.stop])

/-- A run that is given up is not done. -/
theorem giveUp : (Eval.giveUp : Eval α).Ensures P := by
  intro n k a log k' h
  exact absurd h (by simp [Eval.giveUp])

theorem ofExcept {e : Except Fault α} (h : ∀ a, e = .ok a → P a) : (ofExcept e).Ensures P := by
  cases e with
  | ok a => exact pure (h a rfl)
  | error cause => exact stop cause

theorem withBudget {n : Nat} (hx : x.Ensures P) : (withBudget n x).Ensures P :=
  fun _ k _ _ _ h => hx (n := n) (k := k) h

/-- **Second parts that are the same** for every value that is ensured are the same. -/
theorem bind_congr {g : α → Eval β} (hx : x.Ensures P) (h : ∀ a, P a → f a = g a) :
    (x >>= f) = (x >>= g) := by
  funext n k
  rw [bind_apply, bind_apply]
  cases hdone : x n k with
  | done a log k' => simp only [h a (hx hdone)]
  | fault cause log k' => rfl
  | exhausted => rfl

end Ensures

/-- The evaluation is done with a value that satisfies a predicate, at every budget
and from every state in which a scope is alive, and leaves the scope alive. -/
def Yields (scope : Nat) (x : Eval α) (P : α → Prop) : Prop :=
  ∀ n k, scope ∈ k.live → ∃ a log k', x n k = .done a log k' ∧ P a ∧ scope ∈ k'.live

namespace Yields

variable {scope : Nat}

theorem pure {a : α} (h : P a) : (Pure.pure a : Eval α).Yields scope P :=
  fun _ k hk => ⟨a, [], k, rfl, h, hk⟩

/-- **Both parts are done**, the second for whatever the first yields. -/
theorem bind (hx : x.Yields scope P) (hf : ∀ a, P a → (f a).Yields scope Q) :
    (x >>= f).Yields scope Q := by
  intro n k hk
  obtain ⟨a, log₁, k₁, h₁, ha, hk₁⟩ := hx n k hk
  obtain ⟨b, log₂, k₂, h₂, hb, hk₂⟩ := hf a ha n k₁ hk₁
  exact ⟨b, _, k₂, bind_eq_done_iff.mpr ⟨a, log₁, k₁, log₂, h₁, h₂, rfl⟩, hb, hk₂⟩

theorem mono {P' : α → Prop} (hx : x.Yields scope P) (h : ∀ a, P a → P' a) :
    x.Yields scope P' := by
  intro n k hk
  obtain ⟨a, log, k', hdone, ha, hk'⟩ := hx n k hk
  exact ⟨a, log, k', hdone, h a ha, hk'⟩

/-- An evaluation has one value, so what is yielded for two reasons is one and the same. -/
theorem and {P' : α → Prop} (hx : x.Yields scope P) (hx' : x.Yields scope P') :
    x.Yields scope fun a => P a ∧ P' a := by
  intro n k hk
  obtain ⟨a, log, k', hdone, ha, hk'⟩ := hx n k hk
  obtain ⟨a', log', k'', hdone', ha', -⟩ := hx' n k hk
  rw [hdone, Outcome.done.injEq] at hdone'
  obtain ⟨rfl, -, -⟩ := hdone'
  exact ⟨a, log, k', hdone, ⟨ha, ha'⟩, hk'⟩

theorem emit (e : Event) : (Eval.emit e).Yields scope fun _ => True :=
  fun _ k hk => ⟨(), [e], k, rfl, trivial, hk⟩

theorem withBudget {n : Nat} (hx : x.Yields scope P) : (Eval.withBudget n x).Yields scope P :=
  fun _ k hk => hx n k hk

end Yields

end Eval

/-- What goes on after a reply. -/
def Parser.goOn {α β : Type} (g : α → Parser β) : Reply α → Eval (Reply β)
  | .ok env stop a => (g a).run env stop
  | .fail message about => pure (.fail message about)

end Descent
