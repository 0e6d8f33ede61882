import Descent.Proofs.Approximation
import Descent.Proofs.Numbering
import Descent.Proofs.Tying

/-!
# Recursive grammars are fixpoints

A nonterminal of a recursive grammar behaves as its rule applied to the
nonterminals themselves (`Parser.letrecMany_fixpoint`): for every environment
and position the one replies if and only if the other does, and with the same
reply. The calls on the two sides are not the same. Inside a grammar a
nonterminal is called through a handle, which has one call less to spend and is
a fault once the grammar is gone; the nonterminals that are returned have what
the run has to spend. So each side is shown to be reached by the other at
larger and larger budgets (`Construction.reachedBy`), along the construction of
the rules and, below a recursive rule, along the calls that are left.

The forms for one, two and three rules are the form for a list with its rules
numbered differently, for all rules whatsoever (`Knot.call_heq`): the parsers
are equal, with every event that they report.
-/

namespace Descent

/-! ## Literals and other primitives -/

namespace Literal

variable {scope : Nat}

theorem ReachedBy.digits {pattern : String} {accept : Char → Bool} {base : Nat} :
    (digits pattern accept base).ReachedBy scope fun _ => digits pattern accept base := by
  refine .bind (.token (.run1 accept) _) fun text => ?_
  by_cases hfits : valueIn base text.toList ≤ maxMagnitude
  · simp only [if_pos hfits]
    exact .succeed _
  · simp only [if_neg hfits]
    exact .fail _

theorem ReachedBy.magnitude (format : NumberFormat) :
    (magnitude format).ReachedBy scope fun _ => magnitude format := by
  have marked : ∀ {marker : String} {p : Parser Nat}, (p.ReachedBy scope fun _ => p) →
      ((Parser.string marker).seqRight p).ReachedBy scope
        fun _ => (Parser.string marker).seqRight p :=
    fun hp => .seqRight (.token _ _) hp
  exact magnitude_induction (P := fun p => p.ReachedBy scope fun _ => p) .orElse
    (marked ReachedBy.digits) (marked ReachedBy.digits) (marked ReachedBy.digits)
    ReachedBy.digits format

theorem ReachedBy.number (format : NumberFormat) :
    (number format).ReachedBy scope fun _ => number format :=
  .bind .position fun _ => .bind (.withDefault (.token _ _) _) fun _ =>
    .map _ (.bind (.mapMessageAt (ReachedBy.magnitude format) _ _) fun _ => .succeed _)

theorem ReachedBy.decoded {read : Reader} {pattern : String} {meaning : Text → Option Text} :
    (decoded read pattern meaning).ReachedBy scope fun _ => decoded read pattern meaning := by
  intro b c hc e e' he n
  refine .bindReply (Parser.ReachedBy.token read _ b c hc e e' he n) (fun stop text => ?_)
    fun message about => .pure (.fail message about)
  cases hm : meaning text.toList with
  | none =>
    simp only [hm]
    exact .pure (.fail _ _)
  | some t =>
    simp only [hm]
    exact .pure (.ok stop t)

theorem ReachedBy.fragment (quote : Char) (escape : Escape) (format : StringFormat) :
    (fragment quote escape format).ReachedBy scope fun _ => fragment quote escape format :=
  fragment_induction (P := fun p => p.ReachedBy scope fun _ => p) .orElse
    (fun _ => ReachedBy.decoded) ReachedBy.decoded (.map _ (.token _ _))

theorem ReachedBy.quotedWith (quote : Char) (escape : Escape) (format : StringFormat)
    (message : String) :
    (quotedWith quote escape format message).ReachedBy scope
      fun _ => quotedWith quote escape format message := by
  have hquote : (Parser.string (String.singleton quote)).ReachedBy scope
      fun _ => Parser.string (String.singleton quote) := .token _ _
  have hbody : (body quote escape format).ReachedBy scope fun _ => body quote escape format :=
    .inEnv (.seqLeft (.foldMany (ReachedBy.fragment quote escape format) _ _) hquote)
      fun _ _ he => he.withoutSkip
  exact .mapMessage (.map _ (hquote.seqRight hbody)) _

end Literal

/-- **A primitive looks at nothing that a budget varies.** -/
theorem Primitive.reachedBy {α : Type} (p : Primitive α) (scope : Nat) :
    p.parser.ReachedBy scope fun _ => p.parser := by
  cases p with
  | string => exact .token _ _
  | ignoreCase => exact .token _ _
  | pattern text message p valid =>
    obtain ⟨program, rfl⟩ := Parser.exists_matching valid
    exact .token _ message
  | atEnd => exact .endWith _
  | real message =>
    refine .bind (.token .real message) fun text => ?_
    cases Decimal.value? text.toList with
    | none => exact .fail _
    | some x => exact .succeed x
  | key => exact .bounded (.token _ _) _
  | keyIgnoreCase => exact .bounded (.token _ _) _
  | number => exact Literal.ReachedBy.number _
  | quoted => exact Literal.ReachedBy.quotedWith _ _ _ _
  | javaIdentifier => exact .token _ _
  | succeed => exact .succeed _
  | fail => exact .fail _
  | position => exact .position
  | moveTo => exact .moveTo _

namespace Construction

/-! ## Whatever is built is reached by itself -/

/-- **A function of environments that does not look into scans**: given scans and
environments that are reached by others, it makes one that is reached by what it
makes of those. It may hand scans on, leave them out or run them. -/
def Uniform {J : Type} (change : (J → Scan) → Env → Eval Env) : Prop :=
  ∀ scope b c, Grows c → ∀ scans (scans' : Nat → J → Scan),
    (∀ j, (scans j).ReachedBy scope fun t => scans' t j) → ∀ e e', Env.ReachedBy scope e e' →
      Eval.ReachedBy scope b c (change scans e) (fun t => change (scans' t) (e' t))
        (Env.ReachedBy scope)

/-- Nothing that is written by hand, and no function of environments, looks at
budgets or into scans. -/
def Policy.uniform : Policy where
  own p := ∀ scope, p.ReachedBy scope fun _ => p
  change := Uniform

variable {V ι : Type} {Γ : V → Type} {τ : ι → Type} {α : Type} {scope : Nat}

/-- Handles that are reached by handles, with more of them beside. -/
theorem extend_reachedBy {outer : Parsers Γ} {outer' : Nat → Parsers Γ} {inner : Parsers τ}
    {inner' : Nat → Parsers τ} (houter : ∀ v, (outer v).ReachedBy scope fun t => outer' t v)
    (hinner : ∀ i, (inner i).ReachedBy scope fun t => inner' t i) (v : V ⊕ ι) :
    (outer.extend inner v).ReachedBy scope fun t => (outer' t).extend (inner' t) v := by
  cases v with
  | inl v => exact houter v
  | inr i => exact hinner i

variable {name : KnotName} {order : List ι}
variable {rules : (i : ι) → Construction (Sum.elim Γ τ) (τ i)} {b : Nat} {c : Nat → Nat}

/-- The rules of a grammar of constructions can be built from any handles. -/
theorem exists_rule (outer : Parsers Γ) (inner : Parsers τ) (i : ι) :
    ∃ p, (knot name order rules outer).rule i inner = .ok p :=
  ⟨_, rfl⟩

/-- That a grammar is tied on the left changes no scope. -/
theorem tie_reachedBy_pure {outer : Parsers Γ} {inner : Parsers τ} :
    Eval.ReachedBy scope b c ((knot name order rules outer).tie inner) (fun _ => pure ())
      fun _ _ => True := by
  intro k a log k' hk hx
  obtain ⟨log', tied, -, hdone⟩ := Knot.tie_done (exists_rule outer inner) b k
  rw [hdone] at hx
  obtain ⟨-, -, rfl⟩ := Outcome.done.inj hx
  exact ⟨fun _ => (), trivial, 0, fun t _ l hl =>
    ⟨[], l, rfl, hl.nextScope, hl.live, hk.live, hk.opened⟩⟩

/-- A grammar on the right can be tied. -/
theorem pure_reachedBy_tie {outer : Nat → Parsers Γ} {inner : Nat → Parsers τ} :
    Eval.ReachedBy scope b c (pure ())
      (fun t => (knot name order rules (outer t)).tie (inner t)) fun _ _ => True := by
  intro k a log k' hk hx
  obtain ⟨rfl, rfl, rfl⟩ := Outcome.done.inj hx
  refine ⟨fun _ => (), trivial, 0, fun t _ l hl => ?_⟩
  obtain ⟨log', tied, -, hdone⟩ := Knot.tie_done (exists_rule (outer t) (inner t)) (c t) l
  exact ⟨log', _, hdone, hl.nextScope, hl.live, hk⟩

end Construction

namespace Knot

variable {ι : Type} {τ : ι → Type} {scope b : Nat} {c : Nat → Nat} {grammar : Knot τ}

/-- States that agree on the scopes agree on what is alive. -/
theorem ensureLive_reachedBy {grammar' : Nat → Knot τ}
    (hname : ∀ t, (grammar' t).name = grammar.name) :
    Eval.ReachedBy scope b c grammar.ensureLive (fun t => (grammar' t).ensureLive)
      fun _ _ => True := by
  intro k a log k' hk hx
  obtain ⟨hlive, -, rfl⟩ := ensureLive_eq_done_iff.mp hx
  refine ⟨fun _ => (), trivial, 0, fun t _ l hl => ⟨[], l, ?_, hl⟩⟩
  exact ensureLive_eq_done_iff.mpr ⟨by rwa [hname, ← hl.live], rfl, rfl⟩

/-- A handle asks for what a nonterminal that is returned need not ask for. -/
theorem ensureLive_reachedBy_pure :
    Eval.ReachedBy scope b c grammar.ensureLive (fun _ => pure ()) fun _ _ => True := by
  intro k a log k' hk hx
  obtain ⟨-, -, rfl⟩ := ensureLive_eq_done_iff.mp hx
  exact ⟨fun _ => (), trivial, 0, fun t _ l hl => ⟨[], l, rfl, hl⟩⟩

/-- What a handle asks for is so where the scope of the grammar is alive. -/
theorem pure_reachedBy_ensureLive {grammar' : Nat → Knot τ}
    (hname : ∀ t, (grammar' t).name.scope = scope) :
    Eval.ReachedBy scope b c (pure ()) (fun t => (grammar' t).ensureLive) fun _ _ => True := by
  intro k a log k' hk hx
  obtain ⟨rfl, rfl, rfl⟩ := Outcome.done.inj hx
  refine ⟨fun _ => (), trivial, 0, fun t _ l hl => ⟨[], l, ?_, hl⟩⟩
  exact ensureLive_eq_done_iff.mpr ⟨by rw [hname, ← hl.live]; exact hk.live, rfl, rfl⟩

end Knot

namespace Construction

variable {V ι : Type} {Γ : V → Type} {τ : ι → Type} {α : Type} {scope : Nat}
variable {name : KnotName} {order : List ι}
variable {rules : (i : ι) → Construction (Sum.elim Γ τ) (τ i)} {b : Nat} {c : Nat → Nat}

/-- **A call** ties the grammar and runs a rule with one call less to spend. -/
theorem call_succ (outer : Parsers Γ) (b : Nat) (i : ι) (e : Env) (n : Nat) :
    (knot name order rules outer).call (b + 1) i e n
      = (knot name order rules outer).tie ((knot name order rules outer).handlesAt b) >>= fun _ =>
        Eval.withBudget b
          (((rules i).parser (outer.extend ((knot name order rules outer).handlesAt b))).run e n) :=
  congrArg ((knot name order rules outer).tie ((knot name order rules outer).handlesAt b) >>= ·)
    (funext fun _ => Eval.pure_bind _ _)

/-- What the rules of a grammar are reached by, if their handles are. -/
def RulesReachedBy (scope : Nat) (rules : (i : ι) → Construction (Sum.elim Γ τ) (τ i))
    (outer : Parsers Γ) (outer' : Nat → Parsers Γ) : Prop :=
  ∀ i (inner : Parsers τ) (inner' : Nat → Parsers τ),
    (∀ j, (inner j).ReachedBy scope fun t => inner' t j) →
    ((rules i).parser (outer.extend inner)).ReachedBy scope
      fun t => (rules i).parser ((outer' t).extend (inner' t))

/-- **A call is reached by the calls with larger and larger budgets**, whatever
there is to spend around them. The induction is on the calls that are left. -/
theorem call_reachedBy {outer : Parsers Γ} {outer' : Nat → Parsers Γ}
    (hrules : RulesReachedBy scope rules outer outer') (b : Nat) {c : Nat → Nat} (hc : Grows c)
    (i : ι) {e : Env} {e' : Nat → Env} (he : e.ReachedBy scope e') (n b₀ : Nat) (c₀ : Nat → Nat) :
    Eval.ReachedBy scope b₀ c₀ ((knot name order rules outer).call b i e n)
      (fun t => (knot name order rules (outer' t)).call (c t) i (e' t) n)
      (Reply.Alike e e') := by
  induction b generalizing c i e e' n b₀ c₀ with
  | zero => exact .giveUp
  | succ b ih =>
    -- almost all budgets on the right allow a call, and then one less is left there too
    obtain ⟨s, hs⟩ := hc 1
    have hsucc : ∀ t, s ≤ t → c t = c t - 1 + 1 := fun t ht => (Nat.sub_add_cancel (hs t ht)).symm
    refine Eval.ReachedBy.of_eventually
      (fun t => (knot name order rules (outer' t)).call (c t - 1 + 1) i (e' t) n) ?_ s
      fun t ht l => by rw [← hsucc t ht]
    simp only [call_succ]
    refine .bindLeft tie_reachedBy_pure fun _ => .bindRight pure_reachedBy_tie fun _ => ?_
    refine .withBudget (hrules i _ _ (fun j => ?_) b _ hc.pred e e' he n)
    intro b₁ c₁ hc₁ e₁ e₁' he₁ n₁
    exact .bind (Knot.ensureLive_reachedBy fun _ => rfl) fun _ _ _ => ih hc.pred j he₁ n₁ b₁ c₁

/-- A nonterminal is reached by the nonterminals of grammars whose rules reach its own. -/
theorem entry_reachedBy {outer : Parsers Γ} {outer' : Nat → Parsers Γ}
    (hrules : RulesReachedBy scope rules outer outer') (i : ι) :
    ((knot name order rules outer).entry i).ReachedBy scope
      fun t => (knot name order rules (outer' t)).entry i := by
  intro b c hc e e' he n
  refine .bind .budget fun b' c' hbudgets => ?_
  obtain ⟨rfl, rfl⟩ := hbudgets
  exact call_reachedBy hrules b' hc i he n b' c'

/-- **Whatever is built is reached by what is built from handles that reach its own.** -/
theorem reachedBy {V : Type} {Γ : V → Type} {α : Type} (p : Construction Γ α)
    (hp : p.Obeys .uniform) {scope : Nat} {handles : Parsers Γ} {handles' : Nat → Parsers Γ}
    (hh : ∀ v, (handles v).ReachedBy scope fun t => handles' t v) :
    (p.parser handles).ReachedBy scope fun t => p.parser (handles' t) := by
  induction p with
  | handle v => exact hh v
  | primitive p => exact p.reachedBy scope
  | own p => exact hp scope
  | unbuilt cause => exact .unbuilt cause _
  | map f p ih => exact .map f (ih hp hh)
  | bind p k ihp ihk => exact .bind (ihp hp.1 hh) fun a => ihk a (hp.2 a) hh
  | bindMap p k f ihp ihk => exact .bindMap f (ihp hp.1 hh) fun a => ihk a (hp.2 a) hh
  | seqRight p q ihp ihq => exact .seqRight (ihp hp.1 hh) (ihq hp.2 hh)
  | seqLeft p q ihp ihq => exact .seqLeft (ihp hp.1 hh) (ihq hp.2 hh)
  | choice ps ih => exact .choice fun i => ih i (hp i) hh
  | orElse p q ihp ihq => exact .orElse (ihp hp.1 hh) (ihq hp.2 hh)
  | withDefault p default ih => exact .withDefault (ih hp hh) default
  | optional p ih => exact .optional (ih hp hh)
  | lookahead p ih => exact .lookahead (ih hp hh)
  | notAhead p ih => exact .notAhead (ih hp hh)
  | filter p accept ih => exact .filter (ih hp hh) accept
  | mapMessage p f ih => exact .mapMessage (ih hp hh) f
  | mapMessageAt p f g ih => exact .mapMessageAt (ih hp.2 hh) f g
  | withMessage p message ih => exact .mapMessage (ih hp hh) _
  | foldSep item delimiter f ihi ihd => exact .foldSep (ihi hp.1 hh) (ihd hp.2 hh) f
  | foldSepRight item delimiter f ihi ihd => exact .foldSepRight (ihi hp.1 hh) (ihd hp.2 hh) f
  | foldMany1 item f ih => exact .foldMany1 (ih hp hh) f
  | foldMany item f default ih => exact .foldMany (ih hp hh) f default
  | inEnv p scanners change ihp ihs =>
    refine .inEnvM (ihp hp.1 hh) fun b c hc e e' he => hp.2.2 scope b c hc _ _ (fun j => ?_) e e' he
    exact (ihs j (hp.2.1 j) hh).scan
  | onText p other ih => exact .onText (ih hp hh) other
  | fresh build ih => exact .fresh fun s => ih s (hp s) hh
  | recursive name order rules i ih =>
    exact entry_reachedBy (fun j inner inner' hinner =>
      ih j (hp j) (extend_reachedBy hh hinner)) i

/-! ## Nonterminals and their rules -/

variable (hrules : ∀ i, (rules i).Obeys .uniform) {outer : Parsers Γ}
  (houter : ∀ v, (outer v).ReachedBy name.scope fun _ => outer v)

include hrules houter

/-- The rules of a grammar reach themselves. -/
theorem rulesReachedBy_self : RulesReachedBy name.scope rules outer fun _ => outer :=
  fun i _ _ hinner => (rules i).reachedBy (hrules i) (extend_reachedBy houter hinner)

/-- **What a nonterminal replies, its rule replies** when it is given the
nonterminals. Inside the grammar stand handles, which are alive if they reply, and
are reached by the nonterminals. -/
theorem entry_reachedBy_rule (i : ι) :
    ((knot name order rules outer).entry i).ReachedBy name.scope
      fun _ => (rules i).parser (outer.extend (knot name order rules outer).entry) := by
  have hself := rulesReachedBy_self hrules houter
  intro b c hc e e' he n
  refine .of_left ((knot name order rules outer).call b i e n) ?_
    fun k => Knot.entry_run_apply ..
  cases b with
  | zero => exact .giveUp
  | succ b =>
    rw [call_succ]
    -- the rule runs on both sides: a handle on the left that replies was alive, and a
    -- nonterminal on the right has at least as much to spend
    refine .bindLeft tie_reachedBy_pure fun _ => .withBudgetLeft ?_
    refine hself i _ _ (fun j => ?_) b c hc e e' he n
    intro b₁ c₁ hc₁ e₁ e₁' he₁ n₁
    refine .bindLeft Knot.ensureLive_reachedBy_pure fun _ => ?_
    refine .of_eventually (fun t => (knot name order rules outer).call (c₁ t) j (e₁' t) n₁)
      (call_reachedBy hself b hc₁ j he₁ n₁ b₁ c₁) 0 fun t _ l => Knot.entry_run_apply ..

/-- **What a rule replies** when it is given the nonterminals, **its nonterminal
replies**: the handles inside the grammar, with more and more to spend, reach the
nonterminals, and are alive where the scope of the grammar is. -/
theorem rule_reachedBy_entry (i : ι) :
    ((rules i).parser (outer.extend (knot name order rules outer).entry)).ReachedBy name.scope
      fun _ => (knot name order rules outer).entry i := by
  have hself := rulesReachedBy_self hrules houter
  intro b c hc e e' he n
  obtain ⟨s, hs⟩ := hc 1
  have hsucc : ∀ t, s ≤ t → c t = c t - 1 + 1 := fun t ht => (Nat.sub_add_cancel (hs t ht)).symm
  refine .of_eventually
    (fun t => (knot name order rules outer).call (c t - 1 + 1) i (e' t) n) ?_ s fun t ht l => by
      rw [← hsucc t ht, Knot.entry_run_apply]
  simp only [call_succ]
  -- the rule runs on both sides: the handles on the right are alive, since their
  -- grammar lives in the scope that stays alive
  refine .bindRight pure_reachedBy_tie fun _ => .withBudgetRight ?_
  refine hself i _ _ (fun j => ?_) b _ hc.pred e e' he n
  intro b₁ c₁ _ e₁ e₁' he₁ n₁
  refine .bindRight (Knot.pure_reachedBy_ensureLive fun _ => rfl) fun _ => ?_
  exact .of_left _ (call_reachedBy hself b₁ hc.pred j he₁ n₁ b₁ c₁) fun k => Knot.entry_run_apply ..

end Construction

/-- A built environment is reached by itself. -/
theorem Env.BuiltBy.reachedBy {env : Env} (h : env.BuiltBy .uniform) (scope : Nat) :
    env.ReachedBy scope fun _ => env := by
  have hscan : ∀ s, env.skip = some s ∨ env.follow = some s → s.ReachedBy scope fun _ => s := by
    intro s hs
    obtain ⟨β, c, hc, rfl⟩ := h s hs
    exact (c.reachedBy hc fun v => v.elim).scan
  refine ⟨fun _ => rfl, ?_, ?_⟩
  · cases hs : env.skip with
    | none => exact fun _ => rfl
    | some s => exact ⟨fun _ => s, fun _ => rfl, hscan s (.inl hs)⟩
  · cases hs : env.follow with
    | none => exact fun _ => rfl
    | some s => exact ⟨fun _ => s, fun _ => rfl, hscan s (.inr hs)⟩

namespace Parser

variable {α : Type} {scope : Nat} {k : Knots} {env : Env} {n : Nat}

/-- **The parser replies** from a state on: some recursion budget is enough. -/
def RepliesFrom (p : Parser α) (k : Knots) (env : Env) (n : Nat) (reply : Reply α) : Prop :=
  ∃ budget log k', p.run env n budget k = .done reply log k'

/-- **What a parser replies, almost all budgets are enough for** in a parser that
reaches it. -/
theorem ReachedBy.eventually {p q : Parser α} (h : p.ReachedBy scope fun _ => q)
    (henv : env.ReachedBy scope fun _ => env) (hk : k.Alive scope) {reply : Reply α}
    (hreply : p.RepliesFrom k env n reply) :
    ∃ s, ∀ t, s ≤ t → ∃ log k', q.run env n t k = .done reply log k' := by
  obtain ⟨budget, log, k', hdone⟩ := hreply
  obtain ⟨replies, halike, s, hs⟩ := h budget _ .id env _ henv n hk hdone
  refine ⟨s, fun t ht => ?_⟩
  obtain ⟨log', l', hq, -⟩ := hs t ht k (.refl hk)
  cases halike with
  | ok stop a => exact ⟨log', l', hq⟩
  | fail message about => exact ⟨log', l', hq⟩

/-- A parser that is reached by another replies nothing that the other does not. -/
theorem ReachedBy.repliesFrom {p q : Parser α} (h : p.ReachedBy scope fun _ => q)
    (henv : env.ReachedBy scope fun _ => env) (hk : k.Alive scope) {reply : Reply α}
    (hreply : p.RepliesFrom k env n reply) : q.RepliesFrom k env n reply := by
  obtain ⟨s, hs⟩ := h.eventually henv hk hreply
  exact ⟨s, hs s (Nat.le_refl s)⟩

/-- **A reply does not depend on the budget**: of two budgets that are enough, both
replies are those of all large budgets. -/
theorem ReachedBy.reply_unique {p q : Parser α} (h : p.ReachedBy scope fun _ => q)
    (hq : q.ReachedBy scope fun _ => q) (henv : env.ReachedBy scope fun _ => env)
    (hk : k.Alive scope) {reply reply' : Reply α} (hreply : p.RepliesFrom k env n reply)
    (hreply' : q.RepliesFrom k env n reply') : reply = reply' := by
  obtain ⟨s, hs⟩ := h.eventually henv hk hreply
  obtain ⟨s', hs'⟩ := hq.eventually henv hk hreply'
  obtain ⟨log, l, hdone⟩ := hs (max s s') (Nat.le_max_left s s')
  obtain ⟨log', l', hdone'⟩ := hs' (max s s') (Nat.le_max_right s s')
  rw [hdone] at hdone'
  exact (Outcome.done.inj hdone').1

/-- **Recursive grammars are fixpoints.** Every rule is built by the library from
handles to all nonterminals, and so is what is skipped and what may follow a
keyword. As long as the grammar is alive, each nonterminal that is returned
replies if and only if its rule, applied to the nonterminals that are returned,
replies, and with the same reply. The forms for one, two and three rules are the
first nonterminal of the same rules in a list. -/
theorem letrecMany_fixpoint (name : KnotName) (rules : List (Rule α))
    (hrules : ∀ i, ∃ c : Construction (Sum.elim Empty.elim fun _ : Fin rules.length => α) α,
      c.Obeys .uniform ∧ rules.get i = c.rule .none)
    (henv : env.BuiltBy .uniform) (hk : k.Alive name.scope) (n : Nat) :
    (∀ i : Fin rules.length, ∃ p q,
      (letrecMany name rules)[i]? = some p ∧ rules.get i (letrecMany name rules) = .ok q
      ∧ (∀ reply, p.RepliesFrom k env n reply ↔ q.RepliesFrom k env n reply)
      ∧ ∀ reply reply', p.RepliesFrom k env n reply → q.RepliesFrom k env n reply' →
          reply = reply')
    ∧ (∀ r : Rule α, (letrecMany name [r]).head? = some (letrec1 name fun p => r [p]))
    ∧ (∀ r₁ r₂ : Rule α, (letrecMany name [r₁, r₂]).head?
        = some (letrec2 name (fun p q => r₁ [p, q]) fun p q => r₂ [p, q]))
    ∧ ∀ r₁ r₂ r₃ : Rule α, (letrecMany name [r₁, r₂, r₃]).head?
        = some (letrec3 name (fun p q r => r₁ [p, q, r]) (fun p q r => r₂ [p, q, r])
            fun p q r => r₃ [p, q, r]) := by
  refine ⟨fun i => ?_, letrec1_eq_letrecMany name, letrec2_eq_letrecMany name,
    letrec3_eq_letrecMany name⟩
  -- the rules are constructions, and the grammar is the one that these make
  choose cs hcs using hrules
  have hobeys := fun i => (hcs i).1
  have hnone : ∀ v, (Parsers.none v).ReachedBy name.scope fun _ => Parsers.none v :=
    fun v => v.elim
  have hknot := Construction.knotOf_eq_knot name cs .none fun i => (hcs i).2
  have hforth : ((knotOf name rules).entry i).ReachedBy name.scope
      fun _ => (cs i).parser (Parsers.none.extend (knotOf name rules).entry) := by
    rw [hknot]
    exact Construction.entry_reachedBy_rule hobeys hnone i
  have hback : ((cs i).parser (Parsers.none.extend (knotOf name rules).entry)).ReachedBy name.scope
      fun _ => (knotOf name rules).entry i := by
    rw [hknot]
    exact Construction.rule_reachedBy_entry hobeys hnone i
  have hentries : ∀ j, ((knotOf name rules).entry j).ReachedBy name.scope
      fun _ => (knotOf name rules).entry j := by
    rw [hknot]
    exact Construction.entry_reachedBy (Construction.rulesReachedBy_self hobeys hnone)
  have hrule := (cs i).reachedBy (hobeys i) (Construction.extend_reachedBy hnone hentries)
  have hself := henv.reachedBy name.scope
  refine ⟨_, _, ?_, ?_, fun reply => ⟨hforth.repliesFrom hself hk, hback.repliesFrom hself hk⟩,
    fun reply reply' => hforth.reply_unique hrule hself hk⟩
  · simp [letrecMany]
  · rw [(hcs i).2, Construction.rule, letrecMany]
    refine congrArg (fun hs => Except.ok ((cs i).parser (Parsers.none.extend hs))) ?_
    exact funext fun v => Construction.getD_map_finRange _ v _

/-- The handle of comments, which are the second of two nonterminals. -/
def commentHandle : Construction (Sum.elim Empty.elim fun _ : Fin 2 => String) String :=
  .handle (Sum.inr ⟨1, Nat.one_lt_two⟩)

/-- A letter, in an environment that skips what the handle of a comment matches. -/
def letter : Construction (Sum.elim Empty.elim fun _ : Fin 2 => String) String :=
  .inEnv (.primitive (.string "x" "no letter")) (fun _ : Unit => commentHandle)
    fun scans env => pure (env.withSkip (some (scans ())))

/-- A comment, in which there may be another. -/
def comment : Construction (Sum.elim Empty.elim fun _ : Fin 2 => String) String :=
  .seqRight (.primitive (.string "\x7b" "no comment"))
    (.seqRight (.optional commentHandle) (.primitive (.string "\x7d" "not closed")))

/-- Letters and the comments before them. -/
def commented : List (Rule String) := [letter.rule .none, comment.rule .none]

/-- The letter after a comment in a comment is found by the rule as well. -/
theorem letrecMany_fixpoint_commented :
    let env := Env.new ['\x7b', '\x7b', '\x7d', '\x7d', 'x']
    ∃ q, commented.get ⟨0, by decide⟩ (letrecMany ⟨0, []⟩ commented) = .ok q
      ∧ q.RepliesFrom .initial env 0 (.ok env 5 "x") := by
  intro env
  have henv : env.BuiltBy .uniform := by
    rintro s (h | h)
    · exact absurd h (by simp [env, Env.new])
    · exact absurd h (by simp [env, Env.new])
  have hrules : ∀ i : Fin commented.length,
      ∃ c : Construction (Sum.elim Empty.elim fun _ : Fin commented.length => String) String,
        c.Obeys .uniform ∧ commented.get i = c.rule .none := by
    intro i
    match i with
    | ⟨0, _⟩ =>
      refine ⟨letter, ⟨trivial, fun _ => trivial, ?_⟩, rfl⟩
      exact fun _ _ _ _ _ _ hscans _ _ he => .pure (he.withSkip (hscans ()))
    | ⟨1, _⟩ => exact ⟨comment, ⟨trivial, trivial, trivial⟩, rfl⟩
  obtain ⟨p, q, hp, hq, hreplies, -⟩ := (letrecMany_fixpoint ⟨0, []⟩ commented hrules henv
    Knots.alive_initial 0).1 ⟨0, by decide⟩
  obtain rfl : (knotOf ⟨0, []⟩ commented).entry ⟨0, by decide⟩ = p := Option.some.inj hp
  exact ⟨q, hq, (hreplies _).mp ⟨5, _, _, rfl⟩⟩

end Parser

end Descent
