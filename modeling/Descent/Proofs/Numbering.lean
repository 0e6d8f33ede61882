import Descent.Parser.Recursion

/-!
# How rules are numbered

Recursive grammars of one, two or three rules have nonterminals and value types
of their own, and those of a list of rules are numbers. Nothing depends on it:
if the nonterminals of one grammar are renamed to those of another, and the
rules build the same parsers from the same handles, then every call of the one
is the call of the other (`Knot.call_heq`). Calls of renamed nonterminals have
types that are equal for each nonterminal and not for all of them at once, so
the statement relates them across types.

A form for a few rules is therefore the form for the list of them, and equal to
its first parser with all events that are reported (`Parser.letrec1_eq_letrecMany`,
`Parser.letrec2_eq_letrecMany`, `Parser.letrec3_eq_letrecMany`).
-/

namespace Descent

namespace Knot

/-! ## Computations on equal types -/

section

variable {A B : Type} {x y : Eval Unit}

theorem ofExcept_bind_heq (h : A = B) {r : Except Fault (Parser A)} {r' : Except Fault (Parser B)}
    (hr : HEq r r') (rest : Eval Unit) :
    (Eval.ofExcept r >>= fun _ => rest) = (Eval.ofExcept r' >>= fun _ => rest) := by
  subst h
  rw [eq_of_heq hr]

/-- A handle is what it asks for and what it calls. -/
theorem handle_heq (h : A = B) (hxy : x = y) {g : Env → Nat → Eval (Reply A)}
    {g' : Env → Nat → Eval (Reply B)} (hg : HEq g g') :
    HEq (Parser.mk fun env n => x >>= fun _ => g env n)
      (Parser.mk fun env n => y >>= fun _ => g' env n) := by
  subst h hxy
  rw [eq_of_heq hg]

/-- A call is how the grammar is tied and what the rule builds. -/
theorem call_body_heq (h : A = B) (hxy : x = y) {r : Except Fault (Parser A)}
    {r' : Except Fault (Parser B)} (hr : HEq r r') (b : Nat) :
    HEq (fun (env : Env) n => x >>= fun _ => Eval.ofExcept r >>= fun p =>
        Eval.withBudget b (p.run env n))
      (fun (env : Env) n => y >>= fun _ => Eval.ofExcept r' >>= fun p =>
        Eval.withBudget b (p.run env n)) := by
  subst h hxy
  rw [eq_of_heq hr]

end

/-! ## Renamed grammars -/

variable {ι ι' : Type} {τ : ι → Type} {τ' : ι' → Type}

/-- **A grammar with its nonterminals renamed**: the rules of the one build what
those of the other build from the same handles. -/
structure Renamed (grammar : Knot τ) (grammar' : Knot τ') (f : ι → ι') : Prop where
  types : ∀ i, τ i = τ' (f i)
  name : grammar'.name = grammar.name
  order : grammar'.order = grammar.order.map f
  rule : ∀ (handles : (j : ι) → Parser (τ j)) (handles' : (j : ι') → Parser (τ' j)),
    (∀ j, HEq (handles j) (handles' (f j))) →
      ∀ i, HEq (grammar.rule i handles) (grammar'.rule (f i) handles')

variable {grammar : Knot τ} {grammar' : Knot τ'} {f : ι → ι'}

namespace Renamed

variable (h : grammar.Renamed grammar' f)
include h

theorem buildRules {handles : (j : ι) → Parser (τ j)} {handles' : (j : ι') → Parser (τ' j)}
    (hhandles : ∀ j, HEq (handles j) (handles' (f j))) (index : Nat) (is : List ι) :
    grammar.buildRules handles index is = grammar'.buildRules handles' index (is.map f) := by
  induction is generalizing index with
  | nil => rfl
  | cons i is ih =>
    simp only [List.map_cons, Knot.buildRules, h.name, ih]
    exact congrArg (Eval.emit _ >>= ·) (funext fun _ =>
      ofExcept_bind_heq (h.types i) (h.rule _ _ hhandles i) _)

theorem tie {handles : (j : ι) → Parser (τ j)} {handles' : (j : ι') → Parser (τ' j)}
    (hhandles : ∀ j, HEq (handles j) (handles' (f j))) :
    grammar.tie handles = grammar'.tie handles' := by
  unfold Knot.tie
  rw [h.name, h.order, h.buildRules hhandles]

theorem ensureLive : grammar.ensureLive = grammar'.ensureLive := by
  unfold Knot.ensureLive
  rw [h.name]

/-- **Calls of renamed nonterminals are the same.** The induction is on the calls
that are left: handles are calls with one less. -/
theorem call_heq (b : Nat) (i : ι) : HEq (grammar.call b i) (grammar'.call b (f i)) := by
  induction b generalizing i with
  | zero =>
    show HEq (fun _ _ => Eval.giveUp : Env → Nat → Eval (Reply (τ i)))
      (fun _ _ => Eval.giveUp : Env → Nat → Eval (Reply (τ' (f i))))
    rw [h.types i]
  | succ b ih =>
    have hhandles := fun j => handle_heq (h.types j) h.ensureLive (ih j)
    exact call_body_heq (h.types i) (h.tie hhandles) (h.rule _ _ hhandles i) b

/-- Nonterminals that are returned are calls with what there is to spend. -/
theorem entry_heq (i : ι) : HEq (grammar.entry i) (grammar'.entry (f i)) := by
  have entry_of : ∀ {A B : Type}, A = B → ∀ {g : Nat → Env → Nat → Eval (Reply A)}
      {g' : Nat → Env → Nat → Eval (Reply B)}, (∀ b, HEq (g b) (g' b)) →
      HEq (Parser.mk fun env n => Eval.budget >>= fun b => g b env n)
        (Parser.mk fun env n => Eval.budget >>= fun b => g' b env n) := by
    intro A B hAB g g' hg
    subst hAB
    rw [show g = g' from funext fun b => eq_of_heq (hg b)]
  exact entry_of (h.types i) fun b => h.call_heq b i

end Renamed

end Knot

namespace Parser

variable {α : Type} (name : KnotName)

/-- **One rule** is a list of one rule. -/
theorem letrec1_eq_letrecMany (r : Rule α) :
    (letrecMany name [r]).head? = some (letrec1 name fun p => r [p]) := by
  have hrenamed : (knot1 name fun p => r [p]).Renamed (knotOf name [r]) fun _ => 0 := by
    refine ⟨fun _ => rfl, rfl, rfl, fun handles handles' hhandles i => ?_⟩
    show HEq (r [handles ()]) (r [handles' 0])
    rw [eq_of_heq (hhandles ())]
  exact congrArg some (eq_of_heq (hrenamed.entry_heq ())).symm

/-- **Two rules** are a list of two rules. -/
theorem letrec2_eq_letrecMany (r₁ r₂ : Rule α) :
    (letrecMany name [r₁, r₂]).head?
      = some (letrec2 name (fun p q => r₁ [p, q]) fun p q => r₂ [p, q]) := by
  have hrenamed : (knot2 name (fun p q => r₁ [p, q]) fun p q => r₂ [p, q]).Renamed
      (knotOf name [r₁, r₂]) fun i => i := by
    refine ⟨fun i => ?_, rfl, rfl, fun handles handles' hhandles i => ?_⟩
    · match i with
      | 0 => rfl
      | 1 => rfl
    · -- for each nonterminal the value types are equal, and so are the handles
      have h₀ : handles 0 = handles' 0 := eq_of_heq (hhandles 0)
      have h₁ : handles 1 = handles' 1 := eq_of_heq (hhandles 1)
      match i with
      | 0 =>
        show HEq (r₁ [handles 0, handles 1]) (r₁ [handles' 0, handles' 1])
        rw [h₀, h₁]
      | 1 =>
        show HEq (r₂ [handles 0, handles 1]) (r₂ [handles' 0, handles' 1])
        rw [h₀, h₁]
  exact congrArg some (eq_of_heq (hrenamed.entry_heq 0)).symm

/-- **Three rules** are a list of three rules. -/
theorem letrec3_eq_letrecMany (r₁ r₂ r₃ : Rule α) :
    (letrecMany name [r₁, r₂, r₃]).head?
      = some (letrec3 name (fun p q r => r₁ [p, q, r]) (fun p q r => r₂ [p, q, r])
          fun p q r => r₃ [p, q, r]) := by
  have hrenamed : (knot3 name (fun p q r => r₁ [p, q, r]) (fun p q r => r₂ [p, q, r])
      fun p q r => r₃ [p, q, r]).Renamed (knotOf name [r₁, r₂, r₃]) fun i => i := by
    refine ⟨fun i => ?_, rfl, rfl, fun handles handles' hhandles i => ?_⟩
    · match i with
      | 0 => rfl
      | 1 => rfl
      | 2 => rfl
    · have h₀ : handles 0 = handles' 0 := eq_of_heq (hhandles 0)
      have h₁ : handles 1 = handles' 1 := eq_of_heq (hhandles 1)
      have h₂ : handles 2 = handles' 2 := eq_of_heq (hhandles 2)
      match i with
      | 0 =>
        show HEq (r₁ [handles 0, handles 1, handles 2]) (r₁ [handles' 0, handles' 1, handles' 2])
        rw [h₀, h₁, h₂]
      | 1 =>
        show HEq (r₂ [handles 0, handles 1, handles 2]) (r₂ [handles' 0, handles' 1, handles' 2])
        rw [h₀, h₁, h₂]
      | 2 =>
        show HEq (r₃ [handles 0, handles 1, handles 2]) (r₃ [handles' 0, handles' 1, handles' 2])
        rw [h₀, h₁, h₂]
  exact congrArg some (eq_of_heq (hrenamed.entry_heq 0)).symm

end Parser

end Descent
