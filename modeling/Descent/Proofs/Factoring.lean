import Descent.Proofs.Alternatives
import Descent.Proofs.Rerunning

/-!
# Factoring out a common beginning

Alternatives that begin with the same parser run it once each, and it may be run once for
all of them: a choice of sequences is a sequence that ends in a choice
(`Construction.choice_bind_factors`). The parser may fail, be recursive, and hand on
another environment than that of its call.

**What is compared.** On the one side the common beginning runs again after an alternative
has failed, in the state that the failure left. It replies what it replied before, apart
from the numbers of scopes in what it hands on. On the other side every alternative goes on
in the one environment. So the alternatives are followed in step, through states that leave
alone what was there when the beginning had ended (`Parser.firstOf_inStep`), and where one of
them succeeds the two sides are paired.

**If the beginning fails**, it fails every time, and the failure that is reported is the
last of many that are the same. This is where a choice of none would differ, which fails
in a way of its own.
-/

namespace Descent

namespace Parser

variable {α β γ : Type} {w : Pairing} {p : Parser α} {env env' : Env} {n stop budget : Nat}
  {k k' l : Knots} {log : List Event}

/-! ## Alternatives in step -/

/-- **Ends of alternatives that are tried in step**: the same failure, and the states go on
as the invariant says; or a success with the same position and value, about which something
is found. -/
inductive InStep (invariant : Knots → Knots → Prop) (found : Env → Knots → Env → Knots → Prop) :
    Outcome (Reply β) → Outcome (Reply β) → Prop where
  | ok {env env' : Env} {k l : Knots} {log log' : List Event} (h : found env k env' l)
      (stop : Nat) (b : β) :
      InStep invariant found (.done (.ok env stop b) log k) (.done (.ok env' stop b) log' l)
  | fail {k l : Knots} {log log' : List Event} (h : invariant k l) (message : String)
      (about : Option Nat) :
      InStep invariant found (.done (.fail message about) log k)
        (.done (.fail message about) log' l)
  | fault {cause : Fault} {log log' : List Event} {k l : Knots} :
      InStep invariant found (.fault cause log k) (.fault cause log' l)
  | exhausted : InStep invariant found .exhausted .exhausted

theorem InStep.after {invariant : Knots → Knots → Prop}
    {found : Env → Knots → Env → Knots → Prop} {x y : Outcome (Reply β)}
    (h : InStep invariant found x y) (log log' : List Event) :
    InStep invariant found (x.after log) (y.after log') := by
  cases h with
  | ok h stop b => exact .ok h stop b
  | fail h message about => exact .fail h message about
  | fault => exact .fault
  | exhausted => exact .exhausted

/-- **Two choices whose alternatives are tried in step**, told by what they are numbered
with. If there are none, they end in one and the same failure. -/
theorem firstOf_inStep {invariant : Knots → Knots → Prop}
    {found : Env → Knots → Env → Knots → Prop} {P Q : γ → Parser β} {is : List γ} {n' : Nat}
    (h : ∀ i ∈ is, ∀ k l, invariant k l →
      InStep invariant found ((P i).run env n budget k) ((Q i).run env' n' budget l))
    (hkl : invariant k l) {failure failure' : Reply β}
    (hfailure : is ≠ [] ∨ ∃ message about, failure = .fail message about
      ∧ failure' = .fail message about) (index index' : Nat) :
    InStep invariant found (firstOf index failure (is.map P) env n budget k)
      (firstOf index' failure' (is.map Q) env' n' budget l) := by
  induction is generalizing k l failure failure' index index' with
  | nil =>
    obtain ⟨message, about, rfl, rfl⟩ := hfailure.resolve_left (absurd rfl ·)
    exact .fail hkl message about
  | cons i is ih =>
    have hhead := h i List.mem_cons_self k l hkl
    rw [List.map_cons, List.map_cons, firstOf_cons, firstOf_cons, Eval.bind_apply,
      Eval.bind_apply]
    generalize (P i).run env n budget k = ends at hhead ⊢
    generalize (Q i).run env' n' budget l = ends' at hhead ⊢
    cases hhead with
    | ok h stop b => exact .ok h stop b
    | fail hkl message about =>
      have hrest := ih (fun i hi => h i (List.mem_cons_of_mem _ hi)) hkl
        (.inr ⟨message, about, rfl, rfl⟩) (index + 1) (index' + 1)
      exact (hrest.after _ _).after _ _
    | fault => exact .fault
    | exhausted => exact .exhausted

/-! ## The beginning -/

/-- After a success the second parser runs where the first one finished. -/
theorem bind_ok {a : α} (h : p.run env n budget k = .done (.ok env' stop a) log k')
    (f : α → Parser β) :
    (p.bind f).run env n budget k = ((f a).run env' stop budget k').after log := by
  show (p.run env n >>= _) budget k = _
  rw [Eval.bind_apply, h]

/-- The first failure is the failure of the whole. -/
theorem bind_fail {message : String} {about : Option Nat}
    (h : p.run env n budget k = .done (.fail message about) log k') (f : α → Parser β) :
    (p.bind f).run env n budget k = .done (.fail message about) log k' := by
  show (p.run env n >>= _) budget k = _
  rw [Eval.bind_apply, h]
  exact congrArg (Outcome.done _ · k') (List.append_nil log)

/-- **A beginning that has succeeded** succeeds from every state that leaves alone what was
there before; and what it hands on is paired with what it handed on then. -/
def Begins (w : Pairing) (p : Parser α) (env : Env) (n budget : Nat) (k : Knots) (env' : Env)
    (stop : Nat) (a : α) (l : Knots) : Prop :=
  ∀ k', k.Keeps k' → ∃ w' env'' log k'', w ≤ w' ∧ k.Keeps k'' ∧ k''.Paired w' l
    ∧ env''.Paired w' env' ∧ p.run env n budget k' = .done (.ok env'' stop a) log k''

/-- Where the beginning fails, all the sequences do, and in the same way. -/
theorem firstOf_bind_fail {F : γ → α → Parser β} {is : List γ} {message : String}
    {about : Option Nat}
    (hp : ∀ k', k.Keeps k' → ∃ log k'', k.Keeps k'' ∧
      p.run env n budget k' = .done (.fail message about) log k'')
    (hk : k.Keeps k') (failure : Reply β) (hfailure : is ≠ [] ∨ failure = .fail message about)
    (index : Nat) : ∃ log k'', k.Keeps k'' ∧
      firstOf index failure (is.map fun i => p.bind (F i)) env n budget k'
        = .done (.fail message about) log k'' := by
  induction is generalizing k' failure index with
  | nil => exact ⟨[], k', hk, hfailure.resolve_left (absurd rfl ·) ▸ rfl⟩
  | cons i is ih =>
    obtain ⟨log, k'', hk'', hdone⟩ := hp k' hk
    obtain ⟨log', k₃, hk₃, hrest⟩ := ih hk'' _ (.inr rfl) (index + 1)
    refine ⟨log ++ [.alternativeFailed index n message] ++ log', k₃, hk₃, ?_⟩
    rw [List.map_cons, firstOf_of_failed (bind_fail hdone (F i)), hrest]
    rfl

/-- **A choice of sequences with a common beginning** is paired with a sequence that begins
so, if it is where the beginning has succeeded. -/
theorem paired_bind_of_begins (hp : p.Paired w p) {F : γ → α → Parser β} {is : List γ}
    (his : is ≠ []) {rest : α → Parser β}
    (hrest : ∀ w', w ≤ w' → ∀ env n budget k env' stop a l, k.Paired w' l →
      Begins w' p env n budget k env' stop a l →
      Outcome.Paired w' k l Reply.Paired
        ((choice (is.map fun i => p.bind (F i))).run env n budget k)
        ((rest a).run env' stop budget l)) :
    (choice (is.map fun i => p.bind (F i))).Paired w (p.bind rest) := by
  intro w' hw env env' henv n budget k l hkl
  -- on the left the beginning may run again, on the right it runs once
  have hagain : ∀ k', k.Keeps k' → Outcome.Paired w' k l Reply.Paired (p.run env n budget k')
      (p.run env' n budget l) := by
    intro k' hk
    have hends := hp hw henv n budget k' l (hkl.keeps hk (.refl l))
    have hafter := Outcome.Paired.after hends le_rfl hk (.refl l) [] []
    rwa [Outcome.after_nil, Outcome.after_nil] at hafter
  have hfirst := hagain k (.refl k)
  obtain ⟨i, is', rfl⟩ := List.exists_cons_of_ne_nil his
  cases hright : p.run env' n budget l with
  | done reply log l₁ =>
    rw [hright] at hfirst hagain
    obtain ⟨-, -, -, -, -, -, hl₁, -⟩ := hfirst.exists_left
    cases reply with
    | ok env₁ stop a =>
      have hbegins : Begins w' p env n budget k env₁ stop a l₁ := by
        intro k' hk
        obtain ⟨w₁, reply, log₁, k'', hw₁, hk'', -, hstates, hreply, hdone⟩ :=
          (hagain k' hk).exists_left
        cases hreply with
        | ok henv₁ => exact ⟨w₁, _, log₁, k'', hw₁, hk'', hstates, henv₁, hdone⟩
      have hrun := hrest w' hw env n budget k env₁ stop a l₁ (hkl.keeps (.refl k) hl₁) hbegins
      have hafter := Outcome.Paired.after hrun le_rfl (.refl k) hl₁ [] log
      rwa [Outcome.after_nil, ← bind_ok hright] at hafter
    | fail message about =>
      have hfails : ∀ k', k.Keeps k' → ∃ log k'', k.Keeps k'' ∧
          p.run env n budget k' = .done (.fail message about) log k'' := by
        intro k' hk
        obtain ⟨w₁, reply, log₁, k'', -, hk'', -, -, hreply, hdone⟩ := (hagain k' hk).exists_left
        cases hreply with
        | fail => exact ⟨log₁, k'', hk'', hdone⟩
      obtain ⟨log', k', hk', hdone⟩ : ∃ log' k', k.Keeps k' ∧
          (choice ((i :: is').map fun i => p.bind (F i))).run env n budget k
            = .done (.fail message about) log' k' :=
        firstOf_bind_fail hfails (.refl k) (.fail "No alternative" (some n)) (.inl his) 0
      rw [bind_fail hright, hdone]
      exact Outcome.Paired.done _ _ le_rfl hk' hl₁ (hkl.keeps hk' hl₁) (.fail message about)
  | fault cause log l₁ =>
    rw [hright] at hfirst
    obtain ⟨log', k', hleft⟩ := hfirst.fault_left
    have hbind : (p.bind rest).run env' n budget l = .fault cause log l₁ := by
      show (p.run env' n >>= _) budget l = _
      rw [Eval.bind_apply, hright]
    have hchoice : (choice ((i :: is').map fun i => p.bind (F i))).run env n budget k
        = .fault cause log' k' := by
      show ((p.run env n >>= _) >>= _) budget k = _
      rw [Eval.bind_apply, Eval.bind_apply, hleft]
    rw [hbind, hchoice]
    exact Outcome.Paired.fault _ _ _
  | exhausted =>
    rw [hright] at hfirst
    have hleft := hfirst.exhausted_left
    have hbind : (p.bind rest).run env' n budget l = .exhausted := by
      show (p.run env' n >>= _) budget l = _
      rw [Eval.bind_apply, hright]
    have hchoice : (choice ((i :: is').map fun i => p.bind (F i))).run env n budget k
        = .exhausted := by
      show ((p.run env n >>= _) >>= _) budget k = _
      rw [Eval.bind_apply, Eval.bind_apply, hleft]
    rw [hbind, hchoice]
    exact .exhausted

/-! ## What follows the beginning -/

/-- What alternatives that fail leave alone, on both sides. -/
def KeepBoth (k l k' l' : Knots) : Prop := k.Keeps k' ∧ l.Keeps l'

/-- **Where two alternatives succeed**, they hand on environments that are paired, and their
states are paired once the one on the right is closed. -/
def Matched (w : Pairing) (k l : Knots) (close : Knots → Knots) (env : Env) (k' : Knots)
    (env' : Env) (l' : Knots) : Prop :=
  ∃ w', w ≤ w' ∧ KeepBoth k l k' l' ∧ k'.Paired w' (close l') ∧ env.Paired w' env'

/-- **A common beginning is run once for all alternatives.** -/
theorem choice_bind_paired (hp : p.Paired w p) {fs : List (α → Parser β)} (hne : fs ≠ [])
    (hfs : ∀ f ∈ fs, ∀ a, (f a).Paired w (f a)) :
    (choice (fs.map p.bind)).Paired w (p.bind fun a => choice (fs.map fun f => f a)) := by
  refine paired_bind_of_begins hp hne fun w' hw env n budget k env' stop a l hkl hbegins => ?_
  have hstep : ∀ f ∈ fs, ∀ k' l', KeepBoth k l k' l' →
      InStep (KeepBoth k l) (Matched w' k l id) ((p.bind f).run env n budget k')
        ((f a).run env' stop budget l') := by
    intro f hf k' l' ⟨hk, hl⟩
    obtain ⟨w₁, env₁, log, k₁, hw₁, hk₁, hstates, henv₁, hdone⟩ := hbegins k' hk
    have hrun := hfs f hf a (le_trans hw hw₁) henv₁ stop budget k₁ l'
      (hstates.keeps (.refl k₁) hl)
    rw [bind_ok hdone, ← Outcome.after_nil ((f a).run env' stop budget l')]
    refine InStep.after ?_ log []
    generalize (f a).run env₁ stop budget k₁ = ends at hrun ⊢
    generalize (f a).run env' stop budget l' = ends' at hrun ⊢
    cases hrun with
    | done later left right states values =>
      have hkeep : KeepBoth k l _ _ := ⟨hk₁.trans left, hl.trans right⟩
      cases values with
      | ok h stop b => exact .ok ⟨_, le_trans hw₁ later, hkeep, states, h⟩ stop b
      | fail message about => exact .fail hkeep message about
    | fault => exact .fault
    | exhausted => exact .exhausted
  have hends : InStep (KeepBoth k l) (Matched w' k l id)
      ((choice (fs.map p.bind)).run env n budget k)
      ((choice (fs.map fun f => f a)).run env' stop budget l) :=
    firstOf_inStep hstep ⟨.refl k, .refl l⟩ (.inl hne) 0 0
  generalize (choice (fs.map p.bind)).run env n budget k = ends at hends ⊢
  generalize (choice (fs.map fun f => f a)).run env' stop budget l = ends' at hends ⊢
  cases hends with
  | ok h stop b =>
    obtain ⟨w'', hw'', ⟨hk', hl'⟩, hstates, henv⟩ := h
    exact Outcome.Paired.done _ _ hw'' hk' hl' hstates (.ok henv stop b)
  | fail h message about =>
    exact Outcome.Paired.done _ _ le_rfl h.1 h.2 (hkl.keeps h.1 h.2) (.fail message about)
  | fault => exact Outcome.Paired.fault _ _ _
  | exhausted => exact .exhausted

/-- What is built on the spot for a value, in a scope of its own. -/
def onTheSpot (build : α → Nat → Parser β) (a : α) : Parser β := fresh fun s => .ok (build a s)

/-- It runs in a new scope, and the scope is closed. -/
theorem onTheSpot_run_apply (build : α → Nat → Parser β) (a : α) (env : Env) (n budget : Nat)
    (k : Knots) : (onTheSpot build a).run env n budget k
      = closing k.nextScope env n (build a k.nextScope) budget k.opened := by
  rw [onTheSpot, fresh_run_apply, Eval.ofExcept, Eval.pure_bind]

/-- **Alternatives that are built on the spot**, each in a scope of its own or all in one. -/
theorem choice_bind_onTheSpot_paired (hp : p.Paired w p) {builds : List (α → Nat → Parser β)}
    (hne : builds ≠ [])
    (hbuilds : ∀ build ∈ builds, ∀ a w', w ≤ w' → ∀ s t, w'.rel s t →
      (build a s).Paired w' (build a t)) :
    (choice (builds.map fun build => p.bind (onTheSpot build))).Paired w
      (p.bind (onTheSpot fun a s => choice (builds.map fun build => build a s))) := by
  refine paired_bind_of_begins hp hne fun w' hw env n budget k env' stop a l hkl hbegins => ?_
  have hstep : ∀ build ∈ builds, ∀ k' l', KeepBoth k l.opened k' l' →
      InStep (KeepBoth k l.opened) (Matched w' k l.opened (·.without (· == l.nextScope)))
        ((p.bind (onTheSpot build)).run env n budget k')
        ((build a l.nextScope).run env' stop budget l') := by
    intro build hbuild k' l' ⟨hk, hl⟩
    obtain ⟨w₁, env₁, log, k₁, hw₁, hk₁, hstates, henv₁, hdone⟩ := hbegins k' hk
    -- the scope of this alternative is paired with the one scope of all on the right
    have hw₂ := le_trans hw₁ hstates.le_next
    have hrun := hbuilds build hbuild a hstates.next (le_trans hw hw₂) _ _ hstates.next_rel le_rfl
      (henv₁.mono hstates.le_next) stop budget k₁.opened l' (hstates.opened_next.keeps (.refl _) hl)
    rw [bind_ok hdone, ← Outcome.after_nil ((build a l.nextScope).run env' stop budget l'),
      onTheSpot_run_apply, closing, Eval.bind_apply]
    refine InStep.after ?_ log []
    generalize (build a k₁.nextScope).run env₁ stop budget k₁.opened = ends at hrun ⊢
    generalize (build a l.nextScope).run env' stop budget l' = ends' at hrun ⊢
    cases hrun with
    | done later left right states values =>
      have hkeep : KeepBoth k l.opened _ _ := ⟨hk₁.trans left.close, hl.trans right⟩
      cases values with
      | ok h stop b =>
        have hclosed := states.without (later.1 hstates.next_rel)
          (hstates.not_lasts_next later)
        exact .ok ⟨_, le_trans hw₂ later, hkeep, hclosed, h⟩ stop b
      | fail message about => exact .fail hkeep message about
    | fault => exact .fault
    | exhausted => exact .exhausted
  have hends : InStep (KeepBoth k l.opened) (Matched w' k l.opened (·.without (· == l.nextScope)))
      ((choice (builds.map fun build => p.bind (onTheSpot build))).run env n budget k)
      ((choice (builds.map fun build => build a l.nextScope)).run env' stop budget l.opened) :=
    firstOf_inStep hstep ⟨.refl k, .refl _⟩ (.inl hne) 0 0
  rw [onTheSpot_run_apply, closing, Eval.bind_apply]
  generalize (choice (builds.map fun build => p.bind (onTheSpot build))).run env n budget k = ends
    at hends ⊢
  generalize (choice (builds.map fun build => build a l.nextScope)).run env' stop budget
    l.opened = ends' at hends ⊢
  cases hends with
  | ok h stop b =>
    obtain ⟨w'', hw'', ⟨hk', hl'⟩, hstates, henv⟩ := h
    exact Outcome.Paired.done _ _ hw'' hk' hl'.close hstates (.ok henv stop b)
  | fail h message about =>
    exact Outcome.Paired.done _ _ le_rfl h.1 h.2.close (hkl.keeps h.1 h.2.close)
      (.fail message about)
  | fault => exact Outcome.Paired.fault _ _ _
  | exhausted => exact .exhausted

/-! ## Two at a time -/

/-- The alternatives may be tried two at a time, in brackets on the right. -/
theorem orElseRight_bind_paired {f : α → Parser β} {fs : List (α → Parser β)}
    (h : (choice ((f :: fs).map p.bind)).Paired w
      (p.bind fun a => choice ((f :: fs).map fun f => f a))) :
    (orElseRight (p.bind f) (fs.map p.bind)).Paired w
      (p.bind fun a => orElseRight (f a) (fs.map fun f => f a)) := by
  intro w' hw env env' henv n
  refine (h hw henv n).agree (choice_agree_right _ _ env n) (.bind_same fun reply => ?_)
  cases reply with
  | ok env stop a => exact choice_agree_right _ _ env stop
  | fail message about => exact .refl _

/-- In brackets on the left. -/
theorem orElseLeft_bind_paired {f : α → Parser β} {fs : List (α → Parser β)}
    (h : (choice ((f :: fs).map p.bind)).Paired w
      (p.bind fun a => choice ((f :: fs).map fun f => f a))) :
    (orElseLeft (p.bind f) (fs.map p.bind)).Paired w
      (p.bind fun a => orElseLeft (f a) (fs.map fun f => f a)) := by
  intro w' hw env env' henv n
  refine (h hw henv n).agree (choice_agree_left _ _ env n) (.bind_same fun reply => ?_)
  cases reply with
  | ok env stop a => exact choice_agree_left _ _ env stop
  | fail message about => exact .refl _

/-- **Parsers that are paired come to the same** if both hand on the environment of the
call. -/
theorem Paired.result_eq {q : Parser α} (h : p.Paired w q) (hp : p.KeepsEnv) (hq : q.KeepsEnv)
    (henv : env.Paired w env) (hk : k.Paired w k) (n budget : Nat) :
    (p.run env n budget k).result = (q.run env n budget k).result :=
  (h le_rfl henv n budget k k hk).result_eq (fun hleft => hp env n hleft)
    fun hright => hq env n hright

end Parser

namespace Construction

variable {α β : Type}

/-- **A common beginning may be factored out.** A choice of sequences that begin with the
same parser ends as the sequence does that begins with it once and goes on with the choice,
in every environment and state and with any recursion budget: with the same failure, or at
the same position with the same value, in environments that are paired; or it is stopped by
the same fault, or given up. The same holds of alternatives in brackets, and of alternatives
that are built on the spot. Grammars that hand on the environment of the call come to the
same in every part. -/
theorem choice_bind_factors {w : Pairing} {p : Closed α} (hp : p.Alike w p)
    (f : α → Closed β) (fs : List (α → Closed β))
    (hfs : ∀ g ∈ f :: fs, ∀ a, (g a).Alike w (g a)) :
    let sequence : (α → Closed β) → Parser β := fun g => p.toParser.bind fun a => (g a).toParser
    (Parser.choice ((f :: fs).map sequence)).Paired w
      (p.toParser.bind fun a => .choice ((f :: fs).map fun g => (g a).toParser))
    ∧ (Parser.orElseRight (sequence f) (fs.map sequence)).Paired w
      (p.toParser.bind fun a => .orElseRight (f a).toParser (fs.map fun g => (g a).toParser))
    ∧ (Parser.orElseLeft (sequence f) (fs.map sequence)).Paired w
      (p.toParser.bind fun a => .orElseLeft (f a).toParser (fs.map fun g => (g a).toParser))
    ∧ (∀ builds : List (α → Nat → Closed β), builds ≠ [] →
      (∀ build ∈ builds, ∀ a w', w ≤ w' → ∀ s t, w'.rel s t →
        (build a s).Alike w' (build a t)) →
      (Parser.choice (builds.map fun build =>
          p.toParser.bind (.onTheSpot fun a s => (build a s).toParser))).Paired w
        (p.toParser.bind (.onTheSpot fun a s =>
          .choice (builds.map fun build => (build a s).toParser))))
    ∧ (p.Scoped → (∀ g ∈ f :: fs, ∀ a, (g a).Scoped) →
      ∀ env n budget k, env.Paired w env → k.Paired w k →
        ((Parser.choice ((f :: fs).map sequence)).run env n budget k).result
          = ((p.toParser.bind fun a => .choice ((f :: fs).map fun g =>
              (g a).toParser)).run env n budget k).result) := by
  intro sequence
  have hchoice : (Parser.choice (((f :: fs).map fun g a => (g a).toParser).map
      p.toParser.bind)).Paired w (p.toParser.bind fun a =>
        .choice (((f :: fs).map fun g a => (g a).toParser).map fun g => g a)) := by
    refine Parser.choice_bind_paired hp.toParser (by simp) fun g hg a => ?_
    obtain ⟨g, hmem, rfl⟩ := List.mem_map.mp hg
    exact (hfs g hmem a).toParser
  have hright := Parser.orElseRight_bind_paired hchoice
  have hleft := Parser.orElseLeft_bind_paired hchoice
  simp only [List.map_cons, List.map_map, Function.comp_def] at hchoice hright hleft
  refine ⟨hchoice, hright, hleft, fun builds hne hbuilds => ?_, fun hscoped hscopeds => ?_⟩
  · have hspot : (Parser.choice ((builds.map fun build a s => (build a s).toParser).map
        fun build => p.toParser.bind (.onTheSpot build))).Paired w
          (p.toParser.bind (.onTheSpot fun a s => .choice ((builds.map fun build a s =>
            (build a s).toParser).map fun build => build a s))) := by
      refine Parser.choice_bind_onTheSpot_paired hp.toParser (by simpa using hne)
        fun build hbuild a w' hw s t hst => ?_
      obtain ⟨build, hmem, rfl⟩ := List.mem_map.mp hbuild
      exact (hbuilds build hmem a w' hw s t hst).toParser
    simpa only [List.map_map, Function.comp_def] using hspot
  · have hkeeps : p.toParser.KeepsEnv := p.keepsEnv hscoped fun v => v.elim
    have hkeep : ∀ g ∈ f :: fs, ∀ a, (g a).toParser.KeepsEnv :=
      fun g hg a => (g a).keepsEnv (hscopeds g hg a) fun v => v.elim
    intro env n budget k henv hk
    refine hchoice.result_eq (.choice fun q hq => ?_) (.bind hkeeps fun a => .choice fun q hq => ?_)
      henv hk n budget
    · obtain ⟨g, hmem, rfl⟩ : ∃ g ∈ f :: fs, sequence g = q := List.mem_map.mp hq
      exact .bind hkeeps (hkeep g hmem)
    · obtain ⟨g, hmem, rfl⟩ : ∃ g ∈ f :: fs, (g a).toParser = q := List.mem_map.mp hq
      exact hkeep g hmem a

/-- A parser written by hand hands on an environment where nothing is skipped. -/
theorem forgetful_paired (w : Pairing) : forgetful.Paired w forgetful :=
  fun _ _ _ _ henv n => .pure (.ok henv.withoutSkip n ())

/-- Letters where nothing is skipped, and then a comma, or letters once more behind a
semicolon. The letters are read twice or once, and those behind the semicolon are built on
the spot. -/
theorem choice_bind_factors_letters :
    let env : Env := ⟨['a', ';', 'a'], some (Parser.string " ").scan, none⟩
    let p : Closed String := .seqRight (.own forgetful) (letters 0)
    let comma : String → Closed String := fun _ => .primitive (.string "," "no comma")
    let more : String → Closed String := fun _ =>
      .seqRight (.primitive (.string ";" "no semicolon")) (.fresh letters)
    ∃ env' log k', (Parser.choice ([comma, more].map fun g =>
        p.toParser.bind fun a => (g a).toParser)).run env 0 3 .initial
      = .done (.ok env' 3 "end") log k' := by
  intro env p comma more
  have hp : p.Alike (.below 1) p :=
    .seqRight (.own (forgetful_paired _)) (letters_alike ⟨rfl, Nat.one_pos⟩)
  have hmore : ∀ a, (more a).Alike (.below 1) (more a) := fun _ =>
    .seqRight (.primitive _) (.fresh fun _ _ _ _ hst => letters_alike hst)
  have hfs : ∀ g ∈ [comma, more], ∀ a, (g a).Alike (.below 1) (g a) := by
    intro g hg
    obtain rfl | rfl : g = comma ∨ g = more := by simpa using hg
    · exact fun _ => .primitive _
    · exact hmore
  have henv : env.Paired (.below 1) env := ⟨rfl, .some (Parser.PairedOn.scan (.token _ _)), .none⟩
  have honce : ∃ env' log k', (p.toParser.bind fun a => .choice ([comma, more].map fun g =>
      (g a).toParser)).run env 0 3 .initial = .done (.ok env' 3 "end") log k' := ⟨_, _, _, rfl⟩
  obtain ⟨env', log, k', hdone⟩ := honce
  have hends := (choice_bind_factors hp comma [more] hfs).1 le_rfl henv 0 3 .initial .initial
    (.refl .initial)
  rw [hdone] at hends
  obtain ⟨w', reply, log', k'', -, -, -, -, hreply, htwice⟩ := hends.exists_left
  cases hreply with
  | ok => exact ⟨_, log', k'', htwice⟩

end Construction

end Descent
