import Descent.Proofs.Laws
import Descent.Proofs.Sequencing
import Mathlib.Data.List.Nodup

/-!
# A recursive grammar is tied once

The rules of a recursive grammar are built when one of its nonterminals is called for
the first time, and are kept. What is kept is the only thing that one run leaves behind
for the next. This module proves that nothing else comes of it
(`Construction.tied_once`): whatever runs there are, through whichever nonterminal they
enter and however they end, the builders of a grammar are called inside of its first
call, all of them in order, and never again; and each run replies as it would if nothing
had been tied before.

**What is spent.** A grammar is spent once it is tied, and it is spent once its scope is
gone, since nothing can call it then. That is all that has to be known of a state: from
a state where a grammar is spent nothing is reported about it, and spent it stays; and
from one where it is not, either nothing is reported and it may be spent or not, or it
is tied on the way (`Knots.Materializes`). The two fit together when one evaluation
follows another, and a recursive call is the only place where they come from.

**What is not seen.** Whether a grammar is tied decides which builders are called, and
nothing else: an evaluation from two states with the same scopes comes to the same end
(`Outcome.Alike`), whatever is tied in them. Scopes are counted on through a session, so
what was built anew in the same place has other grammars tied, namely none, but the same
scopes.
-/

namespace Descent

/-! ## What is reported about a recursive grammar -/

/-- The recursive grammar that an event is about. -/
def Event.knot? : Event → Option KnotName
  | .materializing knot => some knot
  | .ruleBuilt knot _ => some knot
  | _ => none

theorem Event.IsRemark.knot?_eq {e : Event} (h : e.IsRemark) : e.knot? = none := by
  cases e <;> first | rfl | exact h.elim

/-- Nothing is reported about the grammar. -/
def Silent (name : KnotName) (log : List Event) : Prop := ∀ e ∈ log, e.knot? ≠ some name

theorem Silent.nil (name : KnotName) : Silent name [] := fun _ h => absurd h List.not_mem_nil

theorem Silent.append {name : KnotName} {log log' : List Event} (h : Silent name log)
    (h' : Silent name log') : Silent name (log ++ log') :=
  List.forall_mem_append.mpr ⟨h, h'⟩

/-- **What is reported where a grammar is tied**: that it is, and then every rule that
is built, in order. -/
def KnotName.tyingLog (name : KnotName) (size : Nat) : List Event :=
  .materializing name :: (List.range size).map (.ruleBuilt name)

/-- It is about no other grammar. -/
theorem KnotName.silent_tyingLog {name other : KnotName} (h : other ≠ name) (size : Nat) :
    Silent other (name.tyingLog size) := by
  intro e he heq
  obtain rfl | he := List.mem_cons.mp he
  · exact h (Option.some.inj heq).symm
  · obtain ⟨i, -, rfl⟩ := List.mem_map.mp he
    exact h (Option.some.inj heq).symm

/-- Every rule is built once. -/
theorem KnotName.count_tyingLog (name : KnotName) (size i : Nat) :
    (name.tyingLog size).count (.ruleBuilt name i) ≤ 1 := by
  refine List.nodup_iff_count_le_one.mp (List.nodup_cons.mpr ⟨?_, ?_⟩) _
  · simp
  · exact List.nodup_range.map fun i j h => (Event.ruleBuilt.inj h).2

theorem Silent.count {name : KnotName} {log : List Event} (h : Silent name log) (i : Nat) :
    log.count (.ruleBuilt name i) = 0 :=
  List.count_eq_zero.mpr fun hmem => h _ hmem rfl

/-! ## How evaluations end -/

/-- The log and the state in which an evaluation ends, with a value or with a fault. -/
inductive Outcome.Leaves {α : Type} : Outcome α → List Event → Knots → Prop where
  | done (a : α) (log : List Event) (k : Knots) : Leaves (.done a log k) log k
  | fault (cause : Fault) (log : List Event) (k : Knots) : Leaves (.fault cause log k) log k

theorem Outcome.Leaves.of_done {α : Type} {o : Outcome α} {a : α} {log : List Event} {k : Knots}
    (h : o = .done a log k) : o.Leaves log k :=
  h ▸ .done a log k

theorem Outcome.Leaves.of_fault {α : Type} {o : Outcome α} {cause : Fault} {log : List Event}
    {k : Knots} (h : o = .fault cause log k) : o.Leaves log k :=
  h ▸ .fault cause log k

/-- What comes after an earlier part leaves what it leaves by itself, behind the log
of that part. -/
theorem Outcome.leaves_after_iff {α : Type} {o : Outcome α} {earlier log : List Event}
    {k : Knots} : (o.after earlier).Leaves log k ↔ ∃ log', log = earlier ++ log' ∧ o.Leaves log' k := by
  constructor
  · intro h
    cases o with
    | done a log' => cases h; exact ⟨log', rfl, .done a log' k⟩
    | fault cause log' => cases h; exact ⟨log', rfl, .fault cause log' k⟩
    | exhausted => exact nomatch h
  · rintro ⟨log', rfl, h⟩
    cases h with
    | done a => exact .done a _ _
    | fault cause => exact .fault cause _ _

/-- The same scopes were opened and are alive. -/
def Knots.Beside (k l : Knots) : Prop := l.nextScope = k.nextScope ∧ l.live = k.live

theorem Knots.Beside.refl (k : Knots) : k.Beside k := ⟨rfl, rfl⟩

/-- **The same end**, whatever was reported and is tied: the same value or the same fault,
or neither. -/
inductive Outcome.Alike {α : Type} : Outcome α → Outcome α → Prop where
  | done (a : α) (log log' : List Event) {k l : Knots} (h : k.Beside l) :
    Alike (.done a log k) (.done a log' l)
  | fault (cause : Fault) (log log' : List Event) {k l : Knots} (h : k.Beside l) :
    Alike (.fault cause log k) (.fault cause log' l)
  | exhausted : Alike .exhausted .exhausted

theorem Outcome.Alike.after {α : Type} {o o' : Outcome α} (h : o.Alike o')
    (log log' : List Event) : (o.after log).Alike (o'.after log') := by
  cases h with
  | done a _ _ h => exact .done a _ _ h
  | fault cause _ _ h => exact .fault cause _ _ h
  | exhausted => exact .exhausted

namespace Eval

variable {α β : Type} {x : Eval α} {f : α → Eval β} {n : Nat} {k k' : Knots} {log : List Event}

/-- **A sequence ends** where its first part was stopped, or where the second part ends. -/
theorem leaves_bind (h : ((x >>= f) n k).Leaves log k') :
    (∃ cause, x n k = .fault cause log k')
      ∨ ∃ a log₁ k₁ log₂, x n k = .done a log₁ k₁ ∧ (f a n k₁).Leaves log₂ k'
          ∧ log = log₁ ++ log₂ := by
  rw [bind_apply] at h
  cases hx : x n k with
  | done a log₁ k₁ =>
    rw [hx] at h
    obtain ⟨log₂, rfl, h₂⟩ := Outcome.leaves_after_iff.mp h
    exact .inr ⟨a, log₁, k₁, log₂, rfl, h₂, rfl⟩
  | fault cause log₁ k₁ =>
    rw [hx] at h
    cases h
    exact .inl ⟨cause, rfl⟩
  | exhausted =>
    rw [hx] at h
    exact nomatch h

/-- **Sequences end alike** if their first parts do, and then their second parts. -/
theorem alike_bind {l : Knots} (h : (x n k).Alike (x n l))
    (hf : ∀ a log k₁ l₁, x n k = .done a log k₁ → k₁.Beside l₁ → (f a n k₁).Alike (f a n l₁)) :
    ((x >>= f) n k).Alike ((x >>= f) n l) := by
  rw [bind_apply, bind_apply]
  generalize hk : x n k = o at h hf ⊢
  generalize x n l = o' at h ⊢
  cases h with
  | done a log log' hbeside => exact (hf a log _ _ rfl hbeside).after log log'
  | fault cause log log' hbeside => exact .fault cause log log' hbeside
  | exhausted => exact .exhausted

end Eval

/-! ## Tying, event by event -/

namespace Knot

variable {ι : Type} {τ : ι → Type} {grammar : Knot τ} {handles : (j : ι) → Parser (τ j)}

theorem buildRules_eq (hrules : ∀ i, ∃ p, grammar.rule i handles = .ok p) (index : Nat)
    (is : List ι) (n : Nat) (l : Knots) :
    grammar.buildRules handles index is n l
      = .done () ((List.range' index is.length).map (.ruleBuilt grammar.name)) l := by
  induction is generalizing index with
  | nil => rfl
  | cons i is ih =>
    obtain ⟨p, hp⟩ := hrules i
    refine Eval.bind_eq_done_iff.mpr ⟨(), [_], l, _, rfl, ?_, rfl⟩
    rw [hp]
    exact Eval.bind_eq_done_iff.mpr ⟨p, [], l, _, rfl, ih (index + 1), rfl⟩

/-- A grammar that is tied is left as it is. -/
theorem tie_of_tied {l : Knots} (h : grammar.name ∈ l.tied) (n : Nat) :
    grammar.tie handles n l = .done () [] l := by
  simp [tie, Eval.bind_apply, Eval.knots, Outcome.after, h]

/-- **One that is not is tied**, and its rules are built. -/
theorem tie_of_untied (hrules : ∀ i, ∃ p, grammar.rule i handles = .ok p) {l : Knots}
    (h : grammar.name ∉ l.tied) (n : Nat) :
    grammar.tie handles n l = .done () (grammar.name.tyingLog grammar.order.length)
      ⟨l.nextScope, l.live, grammar.name :: l.tied⟩ := by
  simp [tie, Eval.bind_apply, Eval.knots, Eval.emit, Eval.modifyKnots, Outcome.after, h,
    buildRules_eq hrules, KnotName.tyingLog, List.range_eq_range']

variable {b : Nat} {i : ι} {p : Parser (τ i)}

/-- A call is what is made of the state by tying, and then what the rule makes. -/
theorem call_succ_apply (hp : grammar.rule i (grammar.handlesAt b) = .ok p) (e : Env) (n m : Nat)
    (l : Knots) : grammar.call (b + 1) i e n m l
      = (grammar.tie (grammar.handlesAt b) >>= fun _ => Eval.withBudget b (p.run e n)) m l := by
  have hcall : grammar.call (b + 1) i e n = grammar.tie (grammar.handlesAt b) >>= fun _ =>
      Eval.ofExcept (grammar.rule i (grammar.handlesAt b)) >>= fun p =>
        Eval.withBudget b (p.run e n) := rfl
  rw [hcall, hp, Eval.ofExcept]
  simp only [Eval.pure_bind]

/-- **A call of a grammar that is tied** is what its rule makes, -/
theorem call_of_tied (hp : grammar.rule i (grammar.handlesAt b) = .ok p) {l : Knots}
    (h : grammar.name ∈ l.tied) (e : Env) (n m : Nat) :
    grammar.call (b + 1) i e n m l = p.run e n b l := by
  rw [call_succ_apply hp, Eval.bind_apply, tie_of_tied h]
  exact Outcome.after_nil _

/-- **and the first call** is so after the rules were built. -/
theorem call_of_untied (hrules : ∀ j, ∃ q, grammar.rule j (grammar.handlesAt b) = .ok q)
    (hp : grammar.rule i (grammar.handlesAt b) = .ok p) {l : Knots}
    (h : grammar.name ∉ l.tied) (e : Env) (n m : Nat) :
    grammar.call (b + 1) i e n m l
      = (p.run e n b ⟨l.nextScope, l.live, grammar.name :: l.tied⟩).after
          (grammar.name.tyingLog grammar.order.length) := by
  rw [call_succ_apply hp, Eval.bind_apply, tie_of_untied hrules h]
  rfl

end Knot

/-- **The log of a first call**: a nonterminal of a grammar of that name and size is
called where it is not tied. The rules are built before anything else, and nothing is
reported about the grammar afterwards. -/
inductive FirstCall (name : KnotName) (size : Nat) : List Event → Prop where
  | intro {ι : Type} {τ : ι → Type} (grammar : Knot τ) (budget : Nat) (i : ι) (env : Env)
      (n m : Nat) (l l' : Knots) (rest : List Event) (named : grammar.name = name)
      (sized : grammar.order.length = size) (untied : name ∉ l.tied)
      (called : (grammar.call budget i env n m l).Leaves (name.tyingLog size ++ rest) l')
      (silent : Silent name rest) : FirstCall name size (name.tyingLog size ++ rest)

/-! ## What happens to a grammar between two states -/

namespace Knots

/-- Scopes are alive, and grammars tied, only after they were opened. -/
def Tidy (k : Knots) : Prop := k.Sane ∧ ∀ name ∈ k.tied, name.scope < k.nextScope

/-- **The grammar is tied, or gone**: no builder of it will be called from here on. -/
def Spent (name : KnotName) (k : Knots) : Prop :=
  name ∈ k.tied ∨ name.scope < k.nextScope ∧ name.scope ∉ k.live

/-- **What happens to a grammar** between two states, with what is reported. Either it is
not mentioned; or it was not spent, and there is one part of the log where it is first
called, before and after which it is not mentioned. The sizes of the grammars are known. -/
inductive Materializes (sizes : KnotName → Option Nat) (name : KnotName) (k : Knots) :
    List Event → Knots → Prop where
  | silent {log : List Event} {k' : Knots} (h : Silent name log)
      (spent : k.Spent name → k'.Spent name) : Materializes sizes name k log k'
  | once {size : Nat} {before during rest : List Event} {k' : Knots} (unspent : ¬ k.Spent name)
      (spent : k'.Spent name) (declared : sizes name = some size)
      (first : FirstCall name size during) (hbefore : Silent name before)
      (hafter : Silent name rest) : Materializes sizes name k (before ++ during ++ rest) k'

namespace Materializes

variable {sizes : KnotName → Option Nat} {name : KnotName} {k k₁ k' : Knots}
  {log log' : List Event}

/-- **One thing after another.** Once a grammar was first called it is spent, and is not
mentioned any more. -/
theorem trans (h : Materializes sizes name k log k₁) (h' : Materializes sizes name k₁ log' k') :
    Materializes sizes name k (log ++ log') k' := by
  cases h with
  | silent hsilent hspent =>
    cases h' with
    | silent hsilent' hspent' =>
      exact .silent (hsilent.append hsilent') fun hk => hspent' (hspent hk)
    | once unspent spent declared first hbefore hafter =>
      rw [← List.append_assoc, ← List.append_assoc]
      exact .once (fun hk => unspent (hspent hk)) spent declared first (hsilent.append hbefore)
        hafter
  | once unspent spent declared first hbefore hafter =>
    cases h' with
    | silent hsilent' hspent' =>
      rw [List.append_assoc]
      exact .once unspent (hspent' spent) declared first hbefore (hafter.append hsilent')
    | once unspent' => exact absurd spent unspent'

/-- The states may be replaced by others where no less is spent. -/
theorem mono {l l' : Knots} (h : Materializes sizes name k log k')
    (hk : l.Spent name → k.Spent name) (hk' : k'.Spent name → l'.Spent name) :
    Materializes sizes name l log l' := by
  cases h with
  | silent hsilent hspent => exact .silent hsilent fun hl => hk' (hspent (hk hl))
  | once unspent spent declared first hbefore hafter =>
    exact .once (fun hl => unspent (hk hl)) (hk' spent) declared first hbefore hafter

/-- What is spent is not mentioned. -/
theorem silent_of_spent (h : Materializes sizes name k log k') (hk : k.Spent name) :
    Silent name log := by
  cases h with
  | silent hsilent => exact hsilent
  | once unspent => exact absurd hk unspent

/-- It stays spent. -/
theorem spent (h : Materializes sizes name k log k') (hk : k.Spent name) : k'.Spent name := by
  cases h with
  | silent _ hspent => exact hspent hk
  | once _ spent => exact spent

/-- No rule is built twice, -/
theorem count_le_one (h : Materializes sizes name k log k') (i : Nat) :
    log.count (.ruleBuilt name i) ≤ 1 := by
  cases h with
  | silent hsilent => exact hsilent.count i ▸ Nat.zero_le 1
  | once _ _ _ first hbefore hafter =>
    cases first with
    | intro _ _ _ _ _ _ _ _ _ _ _ _ _ hrest =>
      rw [List.count_append, List.count_append, List.count_append, hbefore.count, hafter.count,
        hrest.count]
      simpa using name.count_tyingLog _ i

/-- and none of a grammar that is not declared. -/
theorem declared (h : Materializes sizes name k log k') {i : Nat}
    (hi : .ruleBuilt name i ∈ log) : ∃ size, sizes name = some size := by
  cases h with
  | silent hsilent => exact absurd rfl (hsilent _ hi)
  | once _ _ declared => exact ⟨_, declared⟩

/-- **A grammar that is mentioned is tied in one place**, with all of its rules. -/
theorem exists_tyingLog {size : Nat} (h : Materializes sizes name k log k')
    (hsize : sizes name = some size) {e : Event} (he : e ∈ log) (hname : e.knot? = some name) :
    ∃ before rest, log = before ++ name.tyingLog size ++ rest ∧ Silent name before
      ∧ Silent name rest := by
  cases h with
  | silent hsilent => exact absurd hname (hsilent e he)
  | @once _ before _ rest _ _ _ declared first hbefore hafter =>
    obtain rfl := Option.some.inj (hsize.symm.trans declared)
    cases first with
    | intro _ _ _ _ _ _ _ _ during _ _ _ _ hduring =>
      exact ⟨before, during ++ rest, by simp only [List.append_assoc], hbefore,
        hduring.append hafter⟩

end Materializes

/-- **What an evaluation does to the state**, with what it reports: it loses no scope
that was alive, and ties each grammar at most once. -/
structure Leads (sizes : KnotName → Option Nat) (k : Knots) (log : List Event) (k' : Knots) :
    Prop where
  tidy : k'.Tidy
  live : k.live ⊆ k'.live
  knots : ∀ name, k.Materializes sizes name log k'

namespace Leads

variable {sizes : KnotName → Option Nat} {k k₁ k' : Knots} {log log' : List Event}

theorem trans (h : k.Leads sizes log k₁) (h' : k₁.Leads sizes log' k') :
    k.Leads sizes (log ++ log') k' :=
  ⟨h'.tidy, List.Subset.trans h.live h'.live, fun name => (h.knots name).trans (h'.knots name)⟩

/-- Nothing is done to the state, and nothing is said about grammars. -/
theorem of_remarks (hk : k.Tidy) (h : ∀ e ∈ log, e.IsRemark) : k.Leads sizes log k :=
  ⟨hk, List.Subset.refl _, fun _ => .silent (fun e he heq => by
    rw [(h e he).knot?_eq] at heq
    exact absurd heq (by simp)) id⟩

theorem refl (hk : k.Tidy) : k.Leads sizes [] k := of_remarks hk fun _ h => absurd h List.not_mem_nil

end Leads

/-! ## Opening and closing scopes -/

variable {sizes : KnotName → Option Nat} {k k₁ : Knots}

theorem Tidy.opened (hk : k.Tidy) : k.opened.Tidy := by
  refine ⟨fun scope hscope => ?_, fun name hname => Nat.lt_succ_of_lt (hk.2 name hname)⟩
  obtain rfl | hscope := List.mem_cons.mp hscope
  · exact Nat.lt_succ_self _
  · exact Nat.lt_succ_of_lt (hk.1 scope hscope)

theorem Tidy.without (hk : k.Tidy) (gone : Nat → Bool) : (k.without gone).Tidy :=
  ⟨fun s hs => hk.1 s (List.mem_filter.mp hs).1, fun name hname =>
    hk.2 name (List.mem_filter.mp hname).1⟩

/-- What is spent is so where a scope is opened: the scope is a new one. -/
theorem Spent.opened {name : KnotName} (h : k.Spent name) : k.opened.Spent name := by
  obtain htied | ⟨hscope, hlive⟩ := h
  · exact .inl htied
  · refine .inr ⟨Nat.lt_succ_of_lt hscope, fun hmem => ?_⟩
    obtain heq | hmem := List.mem_cons.mp hmem
    · exact absurd heq (Nat.ne_of_lt hscope)
    · exact hlive hmem

/-- **Closing a scope spends its grammars**, and leaves the others as they are. -/
theorem Spent.closed {scope : Nat} (hscope : scope < k.nextScope) {name : KnotName}
    (h : k.Spent name) : (k.without (· == scope)).Spent name := by
  by_cases heq : name.scope = scope
  · exact .inr ⟨heq ▸ hscope, fun hmem => by simpa [heq] using (List.mem_filter.mp hmem).2⟩
  · obtain htied | ⟨hlt, hlive⟩ := h
    · exact .inl (List.mem_filter.mpr ⟨htied, bne_iff_ne.mpr heq⟩)
    · exact .inr ⟨hlt, fun hmem => hlive (List.mem_filter.mp hmem).1⟩

/-- What leads on from where a scope was opened leads on from before, -/
theorem Leads.of_opened {log : List Event} (h : k.opened.Leads sizes log k₁) :
    k.Leads sizes log k₁ :=
  ⟨h.tidy, fun _ hs => h.live (List.mem_cons_of_mem _ hs), fun name =>
    (h.knots name).mono Spent.opened id⟩

/-- and to where it is closed. -/
theorem Leads.closed {log : List Event} (hk : k.Tidy) (h : k.opened.Leads sizes log k₁) :
    k.Leads sizes log (k₁.without (· == k.nextScope)) := by
  have hscope : k.nextScope < k₁.nextScope := h.tidy.1 _ (h.live List.mem_cons_self)
  refine ⟨h.tidy.without _, fun scope hs => ?_, fun name =>
    (h.knots name).mono Spent.opened (Spent.closed hscope)⟩
  exact List.mem_filter.mpr ⟨h.live (List.mem_cons_of_mem _ hs),
    bne_iff_ne.mpr (Nat.ne_of_lt (hk.1 scope hs))⟩

theorem Beside.opened {l : Knots} (h : k.Beside l) : k.opened.Beside l.opened := by
  obtain ⟨hnext, hlive⟩ := h
  exact ⟨congrArg (· + 1) hnext, by simp only [Knots.opened, hnext, hlive]⟩

theorem Beside.without {l : Knots} (h : k.Beside l) (gone : Nat → Bool) :
    (k.without gone).Beside (l.without gone) :=
  ⟨h.1, congrArg (List.filter (!gone ·)) h.2⟩

end Knots

/-! ## What tying does to the state -/

namespace Knot

variable {ι : Type} {τ : ι → Type} {grammar : Knot τ} {handles : (j : ι) → Parser (τ j)}
  {sizes : KnotName → Option Nat}

/-- It is not seen whether a grammar was tied before. -/
theorem tie_alike (hrules : ∀ i, ∃ p, grammar.rule i handles = .ok p) {k l : Knots}
    (h : k.Beside l) (n : Nat) : (grammar.tie handles n k).Alike (grammar.tie handles n l) := by
  by_cases hk : grammar.name ∈ k.tied
  · by_cases hl : grammar.name ∈ l.tied
    · rw [tie_of_tied hk, tie_of_tied hl]
      exact .done () [] [] h
    · rw [tie_of_tied hk, tie_of_untied hrules hl]
      exact .done () [] _ h
  · by_cases hl : grammar.name ∈ l.tied
    · rw [tie_of_untied hrules hk, tie_of_tied hl]
      exact .done () _ [] h
    · rw [tie_of_untied hrules hk, tie_of_untied hrules hl]
      exact .done () _ _ h

/-- **A grammar is tied** between two states, with what is reported: it is in the end,
and either it was so before and nothing happened, or it was not and its rules are
built. -/
structure Ties (grammar : Knot τ) (k : Knots) (log : List Event) (k' : Knots) : Prop where
  tidy : k'.Tidy
  beside : k.Beside k'
  tied : grammar.name ∈ k'.tied
  keeps : ∀ name, k.Spent name → k'.Spent name
  others : ∀ name, name ≠ grammar.name → Silent name log
  again : grammar.name ∈ k.tied → log = []
  first : grammar.name ∉ k.tied → log = grammar.name.tyingLog grammar.order.length

/-- So it is by tying it where its scope is alive. -/
theorem exists_ties (hrules : ∀ i, ∃ p, grammar.rule i handles = .ok p) {k : Knots}
    (hk : k.Tidy) (hlive : grammar.name.scope ∈ k.live) (n : Nat) :
    ∃ log k', grammar.tie handles n k = .done () log k' ∧ grammar.Ties k log k' := by
  by_cases htied : grammar.name ∈ k.tied
  · exact ⟨[], k, tie_of_tied htied n, hk, .refl k, htied, fun _ => id, fun name _ => .nil name,
      fun _ => rfl, fun h => absurd htied h⟩
  · refine ⟨_, _, tie_of_untied hrules htied n, ⟨hk.1, fun name hname => ?_⟩, ⟨rfl, rfl⟩,
      List.mem_cons_self, fun name hs => hs.imp (List.mem_cons_of_mem _) id,
      fun name hother => KnotName.silent_tyingLog hother _, fun h => absurd h htied, fun _ => rfl⟩
    obtain rfl | hname := List.mem_cons.mp hname
    · exact hk.1 _ hlive
    · exact hk.2 name hname

/-- **What the first call does to its grammar**, with all that comes after the rules were
built; and what a later call does. -/
theorem Ties.materializes {k k₁ k' : Knots} {tying rest : List Event}
    (h : grammar.Ties k tying k₁) (hsize : sizes grammar.name = some grammar.order.length)
    (hlive : grammar.name.scope ∈ k.live) (hafter : k₁.Leads sizes rest k') {b : Nat} {i : ι}
    {e : Env} {n m : Nat} (hcalled : (grammar.call b i e n m k).Leaves (tying ++ rest) k') :
    k.Materializes sizes grammar.name (tying ++ rest) k' := by
  have hspent : k₁.Spent grammar.name := .inl h.tied
  have hrest := hafter.knots grammar.name
  by_cases htied : grammar.name ∈ k.tied
  · rw [h.again htied]
    exact hrest.mono (h.keeps _) id
  · have hunspent : ¬ k.Spent grammar.name := by
      rintro (hmem | ⟨-, hgone⟩)
      · exact htied hmem
      · exact hgone hlive
    rw [h.first htied] at hcalled ⊢
    have honce := Knots.Materializes.once hunspent (hrest.spent hspent) hsize
      (.intro grammar b i e n m k k' rest rfl rfl htied hcalled (hrest.silent_of_spent hspent))
      (.nil _) (.nil _)
    rwa [List.nil_append, List.append_nil] at honce

end Knot

/-! ## Orderly evaluations -/

namespace Eval

variable {α β : Type} {sizes : KnotName → Option Nat} {alive : List Nat}

/-- **The evaluation is orderly from a state**, with a budget: it ties each grammar at
most once, its value is as described, and whatever else is tied is not seen. -/
structure OrderlyFrom (sizes : KnotName → Option Nat) (n : Nat) (k : Knots) (x : Eval α)
    (P : List Nat → α → Prop) : Prop where
  leads : ∀ log k', (x n k).Leaves log k' → k.Leads sizes log k'
  value : ∀ a log k', x n k = .done a log k' → P k'.live a
  unseen : ∀ l, k.Beside l → (x n k).Alike (x n l)

/-- The evaluation is orderly where the scopes are alive. -/
def Orderly (sizes : KnotName → Option Nat) (alive : List Nat) (x : Eval α)
    (P : List Nat → α → Prop) : Prop :=
  ∀ (n : Nat) (k : Knots), k.Tidy → alive ⊆ k.live → x.OrderlyFrom sizes n k P

/-- An evaluation that does nothing to the state, and remarks something. -/
theorem OrderlyFrom.of_remarks {n : Nat} {k : Knots} {x : Eval α} {P : List Nat → α → Prop}
    {a : α} {log : List Event} (hk : k.Tidy) (hx : ∀ l, k.Beside l → x n l = .done a log l)
    (hlog : ∀ e ∈ log, e.IsRemark) (ha : P k.live a) : x.OrderlyFrom sizes n k P where
  leads log' k' h := by
    rw [hx k (.refl k)] at h
    cases h
    exact .of_remarks hk hlog
  value a' log' k' h := by
    rw [hx k (.refl k), Outcome.done.injEq] at h
    obtain ⟨rfl, -, rfl⟩ := h
    exact ha
  unseen l hl := by
    rw [hx k (.refl k), hx l hl]
    exact .done a log log hl

namespace Orderly

variable {x : Eval α} {f : α → Eval β} {P : List Nat → α → Prop} {Q : List Nat → β → Prop}

theorem pure {a : α} (h : ∀ live, alive ⊆ live → P live a) :
    (Pure.pure a : Eval α).Orderly sizes alive P :=
  fun _ k hk halive => .of_remarks hk (fun _ _ => rfl) (fun _ he => absurd he List.not_mem_nil)
    (h k.live halive)

theorem emit {e : Event} (he : e.IsRemark) :
    (Eval.emit e).Orderly sizes alive fun _ _ => True :=
  fun _ _ hk _ => .of_remarks hk (fun _ _ => rfl) (by simpa using he) trivial

theorem budget : Eval.budget.Orderly sizes alive fun _ _ => True :=
  fun _ _ hk _ => .of_remarks hk (fun _ _ => rfl) (fun _ he => absurd he List.not_mem_nil) trivial

theorem stop (cause : Fault) : (Eval.stop cause : Eval α).Orderly sizes alive P := by
  intro n k hk _
  refine ⟨fun log k' h => ?_, fun a log k' h => absurd h (by simp [Eval.stop]), fun l hl => ?_⟩
  · cases h
    exact .refl hk
  · exact .fault cause [] [] hl

theorem giveUp : (Eval.giveUp : Eval α).Orderly sizes alive P := by
  intro n k _ _
  refine ⟨fun log k' h => ?_, fun a log k' h => absurd h (by simp [Eval.giveUp]), fun l _ => ?_⟩
  · cases h
  · exact .exhausted

/-- **One orderly evaluation after another.** The second begins in the state that the
first one leads to; and beside it, if the first began beside. -/
theorem bind (hx : x.Orderly sizes alive P)
    (hf : ∀ live, alive ⊆ live → ∀ a, P live a → (f a).Orderly sizes live Q) :
    (x >>= f).Orderly sizes alive Q := by
  intro n k hk halive
  obtain ⟨hleads, hvalue, hunseen⟩ := hx n k hk halive
  have hsecond : ∀ a log k₁, x n k = .done a log k₁ →
      k.Leads sizes log k₁ ∧ (f a).OrderlyFrom sizes n k₁ Q := by
    intro a log k₁ hdone
    have hfirst : k.Leads sizes log k₁ := hleads log k₁ (.of_done hdone)
    exact ⟨hfirst, hf k₁.live (List.Subset.trans halive hfirst.live) a (hvalue a log k₁ hdone)
      n k₁ hfirst.tidy (List.Subset.refl _)⟩
  refine ⟨fun log k' h => ?_, fun b log k' h => ?_, fun l hl => ?_⟩
  · obtain ⟨cause, hfault⟩ | ⟨a, log₁, k₁, log₂, hdone, h₂, rfl⟩ := leaves_bind h
    · exact hleads log k' (.of_fault hfault)
    · obtain ⟨hfirst, horderly⟩ := hsecond a log₁ k₁ hdone
      exact hfirst.trans (horderly.leads log₂ k' h₂)
  · obtain ⟨a, log₁, k₁, log₂, hdone, hdone₂, -⟩ := bind_eq_done_iff.mp h
    exact (hsecond a log₁ k₁ hdone).2.value b log₂ k' hdone₂
  · exact alike_bind (hunseen l hl) fun a log k₁ l₁ hdone hl₁ =>
      (hsecond a log k₁ hdone).2.unseen l₁ hl₁

/-- **A part in a scope of its own** may tie the grammars of the scope, which are spent
when it is closed. -/
theorem inScope {x : Nat → Eval α} {P : α → Prop}
    (hx : ∀ scope, (x scope).Orderly sizes (scope :: alive) fun _ => P) :
    (Eval.openScope >>= fun scope => x scope >>= fun a => Eval.closeScope scope >>= fun _ =>
      Pure.pure a).Orderly sizes alive fun _ => P := by
  intro n k hk halive
  have hclose : ∀ scope (a : α) l, (Eval.closeScope scope >>= fun _ => Pure.pure a) n l
      = .done a [] (l.without (· == scope)) := fun _ _ _ => rfl
  obtain ⟨hleads, hvalue, hunseen⟩ :=
    hx k.nextScope n k.opened hk.opened (List.cons_subset_cons k.nextScope halive)
  refine ⟨fun log k' h => ?_, fun b log k' h => ?_, fun l hl => ?_⟩
  · rw [openScope_bind_apply] at h
    obtain ⟨cause, hfault⟩ | ⟨a, log₁, k₁, log₂, hdone, h₂, rfl⟩ := leaves_bind h
    · exact (hleads log k' (.of_fault hfault)).of_opened
    · rw [hclose] at h₂
      cases h₂
      rw [List.append_nil]
      exact (hleads log₁ k₁ (.of_done hdone)).closed hk
  · rw [openScope_bind_apply] at h
    obtain ⟨a, log₁, k₁, log₂, hdone, hdone₂, -⟩ := bind_eq_done_iff.mp h
    rw [hclose, Outcome.done.injEq] at hdone₂
    exact hdone₂.1 ▸ hvalue a log₁ k₁ hdone
  · rw [openScope_bind_apply, openScope_bind_apply, hl.1]
    refine alike_bind (hunseen l.opened hl.opened) fun a log k₁ l₁ _ hl₁ => ?_
    rw [hclose, hclose]
    exact .done a [] [] (hl₁.without _)

variable {ι : Type} {τ : ι → Type} {grammar : Knot τ}

theorem ensureLive (h : grammar.name.scope ∈ alive) :
    grammar.ensureLive.Orderly sizes alive fun _ _ => True :=
  fun _ _ hk halive => .of_remarks hk
    (fun _ hl => Knot.ensureLive_eq_done_iff.mpr ⟨hl.2 ▸ halive h, rfl, rfl⟩)
    (fun _ he => absurd he List.not_mem_nil) trivial

/-- **A call is orderly if its rule is.** Where the grammar was tied, the call is what
the rule makes. Where it was not, this is its first call: the grammar was not spent, since
its scope is alive, and it is so when the rule begins. -/
theorem call {b : Nat} {i : ι} {p : Parser (τ i)} {e : Env} {m : Nat}
    {P : List Nat → Reply (τ i) → Prop}
    (hsize : sizes grammar.name = some grammar.order.length) (hname : grammar.name.scope ∈ alive)
    (hrules : ∀ j, ∃ q, grammar.rule j (grammar.handlesAt b) = .ok q)
    (hp : grammar.rule i (grammar.handlesAt b) = .ok p)
    (hrun : ∀ live, alive ⊆ live → (p.run e m).Orderly sizes live P) :
    (grammar.call (b + 1) i e m).Orderly sizes alive P := by
  intro n k hk halive
  obtain ⟨tying, k₁, htie, htying⟩ := Knot.exists_ties hrules hk (halive hname) n
  obtain ⟨hleads, hvalue, hunseen⟩ := hrun alive (List.Subset.refl _) b k₁ htying.tidy
    (htying.beside.2 ▸ halive)
  refine ⟨fun log k' h => ?_, fun a log k' h => ?_, fun l hl => ?_⟩
  · have hcalled := h
    rw [Knot.call_succ_apply hp] at h
    obtain ⟨cause, hfault⟩ | ⟨_, _, _, rest, hdone, hrest, rfl⟩ := leaves_bind h
    · exact absurd (htie.symm.trans hfault) (by simp)
    · obtain ⟨rfl, rfl, rfl⟩ := Outcome.done.inj (htie.symm.trans hdone)
      have hafter : k₁.Leads sizes rest k' := hleads rest k' hrest
      refine ⟨hafter.tidy, htying.beside.2 ▸ hafter.live, fun name => ?_⟩
      by_cases hother : name = grammar.name
      · exact hother ▸ htying.materializes hsize (halive hname) hafter hcalled
      · exact .trans (.silent (htying.others name hother) (htying.keeps name)) (hafter.knots name)
  · rw [Knot.call_succ_apply hp] at h
    obtain ⟨_, _, _, rest, hdone, hrest, -⟩ := bind_eq_done_iff.mp h
    obtain ⟨-, -, rfl⟩ := Outcome.done.inj (htie.symm.trans hdone)
    exact hvalue a rest k' hrest
  · rw [Knot.call_succ_apply hp, Knot.call_succ_apply hp]
    refine alike_bind (Knot.tie_alike hrules hl n) fun _ log k₂ l₁ hdone hl₁ => ?_
    obtain ⟨-, -, rfl⟩ := Outcome.done.inj (htie.symm.trans hdone)
    exact hunseen l₁ hl₁

end Orderly

end Eval

/-- **Evaluations are orderly**, whatever stops them, where recursive grammars have the
sizes that are declared. -/
def Law.orderly (sizes : KnotName → Option Nat) : Law where
  holds alive x P := x.Orderly sizes alive P
  stops _ := True
  knows name size := sizes name = some size
  pure h := .pure h
  bind hx hf := .bind hx hf
  emit he := .emit he
  stop _ := .stop _
  budget := .budget
  inScope hx := .inScope hx
  giveUp _ := .giveUp
  ensureLive _ hname := .ensureLive hname
  call hsize hname hrules hp hrun := .call hsize hname hrules hp hrun

/-! ## Sessions -/

/-- A run: what is run, where, and with which budget. -/
structure Run where
  Value : Type
  grammar : Construction.Closed Value
  env : Env
  start : Nat
  budget : Nat

namespace Run

/-- How a run ends that begins in a state. -/
def outcome (r : Run) (k : Knots) : Outcome (RunResult r.Value) :=
  r.grammar.toParser.runIn r.env r.start r.budget k

/-- **The recursive grammars that are run are declared**, with their numbers of rules, and
in scopes that are alive or opened on the way; those of what is skipped and of what may
follow a keyword as well. -/
def Declared (sizes : KnotName → Option Nat) (alive : List Nat) (r : Run) : Prop :=
  r.grammar.Lawful (.orderly sizes) alive ∧ r.env.BuiltLawfully (.orderly sizes) alive

theorem Declared.orderly {sizes : KnotName → Option Nat} {alive : List Nat} {r : Run}
    (h : r.Declared sizes alive) :
    (r.grammar.toParser.runIn r.env r.start).Orderly sizes alive fun _ _ => True :=
  (r.grammar.lawful h.1 fun v => v.elim).runIn h.2.lawful r.start

end Run

/-- **Runs, one after the other**, each in the state that the one before it left, with a
reply or stopped by a fault; and all that they report. -/
inductive Runs : Knots → List Run → List Event → Knots → Prop where
  | nil (k : Knots) : Runs k [] [] k
  | cons {k k₁ k' : Knots} {r : Run} {rs : List Run} {log log' : List Event}
      (first : (r.outcome k).Leaves log k₁) (rest : Runs k₁ rs log' k') :
      Runs k (r :: rs) (log ++ log') k'

namespace Runs

variable {sizes : KnotName → Option Nat} {alive : List Nat} {runs : List Run} {k k' : Knots}
  {log : List Event}

/-- All of them together tie each grammar at most once. The induction is on the runs. -/
theorem leads (h : Runs k runs log k') (hruns : ∀ r ∈ runs, r.Declared sizes alive) (hk : k.Tidy)
    (halive : alive ⊆ k.live) : k.Leads sizes log k' := by
  induction h with
  | nil k => exact .refl hk
  | @cons k k₁ k' r rs log log' first rest ih =>
    have horderly := (hruns r List.mem_cons_self).orderly r.budget k hk halive
    have hfirst : k.Leads sizes log k₁ := horderly.leads log k₁ first
    exact hfirst.trans (ih (fun r' hr' => hruns r' (List.mem_cons_of_mem r hr')) hfirst.tidy
      (List.Subset.trans halive hfirst.live))

/-- The runs before one of them. -/
theorem earlier {before after : List Run} {r : Run} (h : Runs k (before ++ r :: after) log k') :
    ∃ log₁ k₁, Runs k before log₁ k₁ := by
  induction before generalizing k log with
  | nil => exact ⟨[], k, .nil k⟩
  | cons r' before ih =>
    cases h with
    | cons first rest =>
      obtain ⟨log₁, k₁, hbefore⟩ := ih rest
      exact ⟨_, k₁, .cons first hbefore⟩

end Runs

/-- Whether a rule is built that has this place among the grammars of its scope, and this
number in its grammar. -/
def Event.builds (path : List Nat) (index : Nat) : Event → Bool
  | .ruleBuilt knot i => knot.path == path && i == index
  | _ => false

/-- **In one scope a rule is known by its place**, and built once. -/
theorem Knots.Leads.countP_builds {sizes : KnotName → Option Nat} {k k' : Knots}
    {log : List Event} (h : k.Leads sizes log k') {scope : Nat}
    (hscope : ∀ name size, sizes name = some size → name.scope = scope) (path : List Nat)
    (i : Nat) : log.countP (Event.builds path i) ≤ 1 := by
  refine Nat.le_trans (List.countP_mono_left fun e he hbuilds => ?_)
    ((h.knots ⟨scope, path⟩).count_le_one i)
  cases e with
  | ruleBuilt knot j =>
    rw [Event.builds, Bool.and_eq_true, beq_iff_eq, beq_iff_eq] at hbuilds
    obtain ⟨rfl, rfl⟩ := hbuilds
    obtain ⟨size, hsize⟩ := (h.knots knot).declared he
    exact beq_iff_eq.mpr (by rw [← hscope knot size hsize])
  | _ => exact absurd hbuilds (by simp [Event.builds])

namespace Construction

/-- **A recursive grammar is tied once, and runs do not influence each other.** There are
any runs, one after the other, of grammars whose recursive parts are declared; they may
share them, enter by any nonterminal, and fail or be stopped.

* What they report about a recursive grammar is nothing; or there is one place where it is
  first called. There all of its rules are built, in order and before anything else, and
  neither before nor after is anything reported about it.
* A call is the first one if and only if the grammar is not tied; a later one calls no
  builder of it.
* A part in a continuation or in a change of environment that is built during the run has
  a scope of its own. If there are no recursive parts but in one scope, no builder is
  called twice by all the runs together.
* Each run comes to the same end where whatever else is tied, or nothing is, as in
  grammars that were built anew. -/
theorem tied_once {sizes : KnotName → Option Nat} {alive : List Nat} {runs : List Run}
    {k k' : Knots} {log : List Event} (hruns : ∀ r ∈ runs, r.Declared sizes alive) (hk : k.Tidy)
    (halive : alive ⊆ k.live) (hdone : Runs k runs log k') :
    (∀ name, Silent name log ∨ ∃ size before during rest, sizes name = some size
        ∧ log = before ++ during ++ rest ∧ Silent name before ∧ FirstCall name size during
        ∧ Silent name rest)
    ∧ (∀ {ι : Type} {τ : ι → Type} (grammar : Knot τ) (b : Nat) (i : ι) (p : Parser (τ i)) env n m l,
        (∀ j, ∃ q, grammar.rule j (grammar.handlesAt b) = .ok q) →
        grammar.rule i (grammar.handlesAt b) = .ok p →
        (grammar.name ∉ l.tied → grammar.call (b + 1) i env n m l
          = (p.run env n b ⟨l.nextScope, l.live, grammar.name :: l.tied⟩).after
              (grammar.name.tyingLog grammar.order.length))
        ∧ (grammar.name ∈ l.tied → grammar.call (b + 1) i env n m l = p.run env n b l))
    ∧ (∀ scope, (∀ name size, sizes name = some size → name.scope = scope) →
        ∀ path i, log.countP (Event.builds path i) ≤ 1)
    ∧ ∀ earlier r later, runs = earlier ++ r :: later → ∃ log₁ k₁, Runs k earlier log₁ k₁
        ∧ ∀ l, k₁.Beside l → (r.outcome k₁).Alike (r.outcome l) := by
  have hleads : k.Leads sizes log k' := hdone.leads hruns hk halive
  refine ⟨fun name => ?_, ?_, ?_, ?_⟩
  · cases hleads.knots name with
    | silent hsilent => exact .inl hsilent
    | once _ _ declared first hbefore hafter =>
      exact .inr ⟨_, _, _, _, declared, rfl, hbefore, first, hafter⟩
  · intro ι τ grammar b i p env n m l hrules hp
    exact ⟨fun h => Knot.call_of_untied hrules hp h env n m,
      fun h => Knot.call_of_tied hp h env n m⟩
  · exact fun scope hscope => hleads.countP_builds hscope
  · rintro earlier r later rfl
    obtain ⟨log₁, k₁, hearlier⟩ := hdone.earlier
    have hbefore : k.Leads sizes log₁ k₁ := hearlier.leads
      (fun r' hr' => hruns r' (List.mem_append_left _ hr')) hk halive
    have horderly := (hruns r (List.mem_append_right _ List.mem_cons_self)).orderly r.budget k₁
      hbefore.tidy (List.Subset.trans halive hbefore.live)
    exact ⟨log₁, k₁, hearlier, horderly.unseen⟩

/-- Parentheses, and what is in them by the other nonterminal. -/
def parens : Construction (Sum.elim Empty.elim fun _ : Bool => String) String :=
  .seqRight (.primitive (.string "(" "not opened"))
    (.seqLeft (.handle (Sum.inr true)) (.primitive (.string ")" "not closed")))

/-- Parentheses by the other nonterminal, or nothing. -/
def parensOrEnd : Construction (Sum.elim Empty.elim fun _ : Bool => String) String :=
  .orElse (.handle (Sum.inr false)) (.primitive (.succeed "end"))

/-- The rules of the two nonterminals. In one of them there may be nothing. -/
def parensRules (optional : Bool) :
    Construction (Sum.elim Empty.elim fun _ : Bool => String) String :=
  if optional then parensOrEnd else parens

/-- A run that enters by one of the two. -/
def parensRun (optional : Bool) (subject : Text) : Run :=
  ⟨String, .recursive ⟨0, []⟩ [false, true] parensRules optional, Env.new subject, 0, 6⟩

/-- A run fails where nothing is opened, and the next one enters by the other nonterminal.
Both rules were built by the first, and the second replies as if they were not. -/
theorem tied_once_parens :
    let sizes : KnotName → Option Nat := fun name => if name = ⟨0, []⟩ then some 2 else none
    let runs := [parensRun false ['x'], parensRun true ['(', '(', ')', ')']]
    let tied : Knots := ⟨1, [0], [⟨0, []⟩]⟩
    (∀ r ∈ runs, r.Declared sizes [0]) ∧ Knots.initial.Tidy
    ∧ (∃ log k', Runs .initial runs log k' ∧ ∀ path i, log.countP (Event.builds path i) ≤ 1)
    ∧ (∃ log₁ k₁, (parensRun false ['x']).outcome .initial
        = .done (.ok (.fail "not opened" (some 0))) log₁ k₁)
    ∧ (∃ log₂ k₂, (parensRun true ['(', '(', ')', ')']).outcome tied
        = .done (.ok (.ok (Env.new ['(', '(', ')', ')']) 4 "end")) log₂ k₂)
    ∧ ∃ log₁ k₁, Runs .initial [parensRun false ['x']] log₁ k₁
      ∧ ((parensRun true ['(', '(', ')', ')']).outcome k₁).Alike
          ((parensRun true ['(', '(', ')', ')']).outcome ⟨k₁.nextScope, k₁.live, []⟩) := by
  intro sizes runs tied
  have hrules : ∀ optional, (parensRules optional).Lawful (.orderly sizes) [0] := by
    intro optional
    cases optional with
    | false => exact ⟨.inl trivial, trivial, .inl trivial⟩
    | true => exact ⟨trivial, .inl trivial⟩
  have hdeclared : ∀ optional subject, (parensRun optional subject).Declared sizes [0] := by
    refine fun optional subject => ⟨⟨rfl, List.mem_singleton_self 0, hrules⟩, ?_⟩
    rintro s (h | h) <;> exact absurd h (by simp [parensRun, Env.new])
  have hruns : ∀ r ∈ runs, r.Declared sizes [0] := by
    simp only [runs, List.mem_cons, List.not_mem_nil, or_false]
    rintro r (rfl | rfl)
    · exact hdeclared false _
    · exact hdeclared true _
  have htidy : Knots.initial.Tidy := by
    refine ⟨fun scope h => ?_, fun name h => absurd h List.not_mem_nil⟩
    rw [List.mem_singleton.mp h]
    exact Nat.zero_lt_one
  have hscope : ∀ name size, sizes name = some size → name.scope = 0 := by
    intro name size h
    by_cases hname : name = ⟨0, []⟩
    · rw [hname]
    · exact absurd h (by simp [sizes, hname])
  have hfailing : ∃ log₁, (parensRun false ['x']).outcome .initial
      = .done (.ok (.fail "not opened" (some 0))) log₁ tied := ⟨_, rfl⟩
  have hentering : ∃ log₂, (parensRun true ['(', '(', ')', ')']).outcome tied
      = .done (.ok (.ok (Env.new ['(', '(', ')', ')']) 4 "end")) log₂ tied := ⟨_, rfl⟩
  obtain ⟨log₁, hfailing⟩ := hfailing
  obtain ⟨log₂, hentering⟩ := hentering
  have hdone : Runs .initial runs (log₁ ++ (log₂ ++ [])) tied :=
    .cons (.of_done hfailing) (.cons (.of_done hentering) (.nil tied))
  obtain ⟨-, -, hbuilds, hreplies⟩ := tied_once hruns htidy (List.Subset.refl [0]) hdone
  obtain ⟨log, k₁, hearlier, halike⟩ := hreplies [parensRun false ['x']] _ [] rfl
  exact ⟨hruns, htidy, ⟨_, _, hdone, hbuilds 0 hscope⟩, ⟨_, _, hfailing⟩, ⟨_, _, hentering⟩,
    log, k₁, hearlier, halike _ ⟨rfl, rfl⟩⟩

end Construction

end Descent
