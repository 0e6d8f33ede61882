import Descent.Proofs.Evaluation

/-!
# Evaluations that end alike

Two evaluations **end alike** if, with the same budget and from the same state,
both are done with values that belong together, or both are stopped by the same
fault, or both are given up; and if they leave the same state. What they report
on the way is not compared: events hold positions, and a computation that does
the same in another way reports other things.

`Eval.Agree` passes through every construct of `Eval`, so that two evaluations
of the same shape are compared part by part. It says of both sides that they
end: if one of them is done, so is the other (`Eval.Agree.done_iff`).
-/

namespace Descent

/-- **Ends that are alike**: the same kind of end, in the same state. -/
inductive Outcome.Agree {α β : Type} (Q : α → β → Prop) : Outcome α → Outcome β → Prop where
  | done {a : α} {b : β} {log log' : List Event} {k : Knots} (h : Q a b) :
      Agree Q (.done a log k) (.done b log' k)
  | fault {cause : Fault} {log log' : List Event} {k : Knots} :
      Agree Q (.fault cause log k) (.fault cause log' k)
  | exhausted : Agree Q .exhausted .exhausted

namespace Outcome.Agree

variable {α β : Type} {P Q : α → β → Prop} {x : Outcome α} {y : Outcome β}

/-- What was reported earlier is not compared. -/
theorem after (h : Agree Q x y) (log log' : List Event) : Agree Q (x.after log) (y.after log') := by
  cases h with
  | done h => exact .done h
  | fault => exact .fault
  | exhausted => exact .exhausted

theorem mono (h : Agree P x y) (hPQ : ∀ a b, P a b → Q a b) : Agree Q x y := by
  cases h with
  | done h => exact .done (hPQ _ _ h)
  | fault => exact .fault
  | exhausted => exact .exhausted

end Outcome.Agree

namespace Eval

variable {α β γ δ : Type}

/-- **Evaluations that end alike**, at every budget and from every state. -/
def Agree (Q : α → β → Prop) (x : Eval α) (y : Eval β) : Prop :=
  ∀ n k, Outcome.Agree Q (x n k) (y n k)

namespace Agree

variable {x : Eval α} {y : Eval β} {f : α → Eval γ} {g : β → Eval δ}
variable {P : α → β → Prop} {Q : γ → δ → Prop}

theorem pure {a : α} {b : β} (h : P a b) : Agree P (Pure.pure a) (Pure.pure b) :=
  fun _ _ => .done h

/-- **What ends alike, goes on alike**, if the second parts do for values that belong
together. -/
theorem bind (hx : Agree P x y) (hf : ∀ a b, P a b → Agree Q (f a) (g b)) :
    Agree Q (x >>= f) (y >>= g) := by
  intro n k
  rw [bind_apply, bind_apply]
  have hends := hx n k
  generalize x n k = ends at hends ⊢
  generalize y n k = ends' at hends ⊢
  cases hends with
  | done h => exact (hf _ _ h n _).after _ _
  | fault => exact .fault
  | exhausted => exact .exhausted

theorem mono {P' : α → β → Prop} (hx : Agree P x y) (h : ∀ a b, P a b → P' a b) :
    Agree P' x y :=
  fun n k => (hx n k).mono h

/-- An evaluation ends as it ends. -/
theorem refl (x : Eval α) : Agree Eq x x := by
  intro n k
  cases x n k with
  | done a log k => exact .done rfl
  | fault cause log k => exact .fault
  | exhausted => exact .exhausted

/-- After the same first part. -/
theorem bind_same {z : Eval α} {f' : α → Eval δ} (h : ∀ a, Agree Q (f a) (f' a)) :
    Agree Q (z >>= f) (z >>= f') :=
  .bind (.refl z) fun a _ hab => hab ▸ h a

/-- After any two events. -/
theorem emit (e e' : Event) : Agree Eq (Eval.emit e) (Eval.emit e') := fun _ _ => .done rfl

/-- After an event on the left alone. -/
theorem emit_left (e : Event) (h : Agree P x y) : Agree P (Eval.emit e >>= fun _ => x) y :=
  fun n k => Outcome.after_nil (y n k) ▸ (h n k).after [e] []

/-- After another evaluation of the same thing, which is known to be built. -/
theorem ofExcept (e : Except Fault α) :
    Agree (fun a b => a = b ∧ e = .ok a) (Eval.ofExcept e) (Eval.ofExcept e) := by
  cases e with
  | ok a => exact .pure ⟨rfl, rfl⟩
  | error cause => exact fun _ _ => .fault

theorem withBudget {n : Nat} (h : Agree P x y) :
    Agree P (Eval.withBudget n x) (Eval.withBudget n y) :=
  fun _ k => h n k

/-- **An evaluation that ends like a value** is done with one that belongs to it, and
changes no state. -/
theorem pure_right_iff {b : β} :
    Agree P x (Pure.pure b) ↔ ∀ n k, ∃ a log, P a b ∧ x n k = .done a log k := by
  constructor
  · intro h n k
    have hends := h n k
    rw [pure_apply] at hends
    generalize x n k = ends at hends ⊢
    cases hends with
    | done hab => exact ⟨_, _, hab, rfl⟩
  · intro h n k
    obtain ⟨a, log, hab, hx⟩ := h n k
    rw [hx]
    exact .done hab

/-- After a first part on the left that ends like a value. -/
theorem bind_left {b : β} {z : Eval δ} (hx : Agree P x (Pure.pure b))
    (hf : ∀ a, P a b → Agree Q (f a) z) : Agree Q (x >>= f) z := by
  intro n k
  obtain ⟨a, log, hab, hdone⟩ := pure_right_iff.mp hx n k
  rw [bind_apply, hdone]
  exact Outcome.after_nil (z n k) ▸ (hf a hab n k).after log []

/-- If the left is done, so is the right. -/
theorem exists_right (h : Agree P x y) {n : Nat} {k k' : Knots} {a : α} {log : List Event}
    (hx : x n k = .done a log k') : ∃ b log', P a b ∧ y n k = .done b log' k' := by
  have hends := h n k
  rw [hx] at hends
  generalize y n k = ends at hends ⊢
  cases hends with
  | done hab => exact ⟨_, _, hab, rfl⟩

/-- If the right is done, so is the left. -/
theorem exists_left (h : Agree P x y) {n : Nat} {k k' : Knots} {b : β} {log : List Event}
    (hy : y n k = .done b log k') : ∃ a log', P a b ∧ x n k = .done a log' k' := by
  have hends := h n k
  rw [hy] at hends
  generalize x n k = ends at hends ⊢
  cases hends with
  | done hab => exact ⟨_, _, hab, rfl⟩

/-- **The one is done exactly if the other is**, and with the value that is computed
from the value of the other. -/
theorem done_iff {f : β → α} (h : Agree (fun a b => a = f b) x y) {n : Nat} {k k' : Knots}
    {a : α} : (∃ log, x n k = .done a log k') ↔ ∃ b, a = f b ∧ ∃ log, y n k = .done b log k' := by
  constructor
  · rintro ⟨log, hx⟩
    obtain ⟨b, log', hab, hy⟩ := h.exists_right hx
    exact ⟨b, hab, log', hy⟩
  · rintro ⟨b, rfl, log, hy⟩
    obtain ⟨a, log', rfl, hx⟩ := h.exists_left hy
    exact ⟨log', hx⟩

end Agree

end Eval

end Descent
