import Descent.Proofs.Construction
import Descent.Proofs.Evaluation
import Descent.Proofs.Rounds

/-!
# Scopes that are closed before or after

What is built on the spot owns a scope, and the scope is closed once its parser has
replied. An evaluation that runs no handle of the scope does not notice: it comes to
the same end, with the same events, whether the scope was closed before or is closed
afterwards (`Eval.Unaware`). This module proves it of whatever the library builds
without naming the scope (`Construction.unaware`).

The states are compared by an equation and not by a relation. `Knots.without` closes
scopes in a state, `Outcome.without` does so at the end of a run, and to be unaware is
to commute with the two. Scopes that are opened on the way do not get in the way if
those that are gone were opened before; so an unaware evaluation takes no opening
back, and that is all that is said of it where no scope is gone.
-/

namespace Descent

/-- The state with some scopes closed: their grammars are gone. -/
def Knots.without (gone : Nat → Bool) (k : Knots) : Knots :=
  ⟨k.nextScope, k.live.filter (!gone ·), k.tied.filter (!gone ·.scope)⟩

/-- Scopes may be closed in any order. -/
theorem Knots.without_comm (gone gone' : Nat → Bool) (k : Knots) :
    (k.without gone).without gone' = (k.without gone').without gone := by
  simp only [Knots.without, List.filter_filter, Bool.and_comm]

/-- The end of a run, with some scopes closed after it. -/
def Outcome.without {α : Type} (gone : Nat → Bool) : Outcome α → Outcome α
  | .done a log k => .done a log (k.without gone)
  | .fault cause log k => .fault cause log (k.without gone)
  | .exhausted => .exhausted

/-- Closing scopes reports nothing. -/
theorem Outcome.after_without {α : Type} (gone : Nat → Bool) (log : List Event) (o : Outcome α) :
    (o.without gone).after log = (o.after log).without gone := by
  cases o <;> rfl

namespace Eval

variable {α β : Type} {gone : Nat → Bool}

/-- **The evaluation does not notice whether the scopes are gone.** Where they were
opened before, it comes to the same end if they are closed first; and what is done
satisfies a predicate and takes no opening back. -/
def Unaware (gone : Nat → Bool) (x : Eval α) (P : α → Prop) : Prop :=
  ∀ (n : Nat) (k : Knots), (∀ s, gone s = true → s < k.nextScope) →
    x n (k.without gone) = (x n k).without gone
    ∧ ∀ a log k', x n k = .done a log k' → P a ∧ k.nextScope ≤ k'.nextScope

namespace Unaware

variable {x : Eval α} {f : α → Eval β} {P P' : α → Prop} {Q : β → Prop}

/-- What is asked of an end that is known: its value, and the scopes opened by then. -/
theorem of_done {a : α} {log : List Event} {k k₁ : Knots} (h : P a)
    (hle : k.nextScope ≤ k₁.nextScope) (a' : α) (log' : List Event) (k' : Knots)
    (hend : Outcome.done a log k₁ = .done a' log' k') : P a' ∧ k.nextScope ≤ k'.nextScope := by
  obtain ⟨rfl, -, rfl⟩ := Outcome.done.inj hend
  exact ⟨h, hle⟩

theorem pure {a : α} (h : P a) : (Pure.pure a : Eval α).Unaware gone P :=
  fun _ _ _ => ⟨rfl, of_done h (Nat.le_refl _)⟩

/-- **One unaware evaluation after another.** The scopes that were opened before the
first are still so before the second. -/
theorem bind (hx : x.Unaware gone P) (hf : ∀ a, P a → (f a).Unaware gone Q) :
    (x >>= f).Unaware gone Q := by
  intro n k hk
  obtain ⟨hfirst, hdone⟩ := hx n k hk
  have hsecond : ∀ a log k₁, x n k = .done a log k₁ →
      f a n (k₁.without gone) = (f a n k₁).without gone
      ∧ ∀ b log' k', f a n k₁ = .done b log' k' → Q b ∧ k₁.nextScope ≤ k'.nextScope :=
    fun a log k₁ h => hf a (hdone a log k₁ h).1 n k₁ fun s hs =>
      Nat.lt_of_lt_of_le (hk s hs) (hdone a log k₁ h).2
  constructor
  · rw [bind_apply, bind_apply, hfirst]
    cases h : x n k with
    | done a log k₁ =>
      show (f a n (k₁.without gone)).after log = ((f a n k₁).after log).without gone
      rw [(hsecond a log k₁ h).1, Outcome.after_without]
    | fault cause log k₁ => rfl
    | exhausted => rfl
  · intro b log k' hend
    obtain ⟨a, log₁, k₁, log₂, h₁, h₂, -⟩ := bind_eq_done_iff.mp hend
    obtain ⟨hb, hle⟩ := (hsecond a log₁ k₁ h₁).2 b log₂ k' h₂
    exact ⟨hb, Nat.le_trans (hdone a log₁ k₁ h₁).2 hle⟩

/-- What is known of the value may be weakened. -/
theorem mono (hx : x.Unaware gone P) (h : ∀ a, P a → P' a) : x.Unaware gone P' := by
  intro n k hk
  obtain ⟨heq, hdone⟩ := hx n k hk
  refine ⟨heq, fun a log k' hend => ?_⟩
  obtain ⟨ha, hle⟩ := hdone a log k' hend
  exact ⟨h a ha, hle⟩

/-- A fault is the same in every state, and it leaves no value. -/
theorem stop (cause : Fault) : (Eval.stop cause : Eval α).Unaware gone P :=
  fun _ _ _ => ⟨rfl, fun _ _ _ hend => absurd hend (by simp [Eval.stop])⟩

theorem giveUp : (Eval.giveUp : Eval α).Unaware gone P :=
  fun _ _ _ => ⟨rfl, fun _ _ _ hend => absurd hend (by simp [Eval.giveUp])⟩

/-- What was built, or the fault that was met in building it: neither looks at the state. -/
theorem ofExcept {e : Except Fault α} (h : ∀ a, e = .ok a → P a) :
    (Eval.ofExcept e).Unaware gone P := by
  cases e with
  | ok a => exact pure (h a rfl)
  | error cause => exact stop cause

/-- The budget is no part of the state. -/
theorem withBudget {n : Nat} (hx : x.Unaware gone P) : (Eval.withBudget n x).Unaware gone P :=
  fun _ k hk => hx n k hk

/-- An event is reported whatever is alive. -/
theorem emit (e : Event) : (Eval.emit e).Unaware gone fun _ => True :=
  fun _ _ _ => ⟨rfl, of_done trivial (Nat.le_refl _)⟩

theorem budget : Eval.budget.Unaware gone fun _ => True :=
  fun _ _ _ => ⟨rfl, of_done trivial (Nat.le_refl _)⟩

/-- **A scope that is opened** is none of those that were opened before. -/
theorem openScope : Eval.openScope.Unaware gone fun scope => gone scope = false := by
  intro n k hk
  have hnew : gone k.nextScope = false :=
    Bool.eq_false_iff.mpr fun h => Nat.lt_irrefl _ (hk k.nextScope h)
  refine ⟨?_, of_done hnew (Nat.le_succ _)⟩
  simp [Eval.openScope, Outcome.without, Knots.without, hnew]

/-- Closing a scope is closing one more. -/
theorem closeScope (scope : Nat) : (Eval.closeScope scope).Unaware gone fun _ => True :=
  fun _ k _ => ⟨congrArg (Outcome.done () []) (Knots.without_comm gone (· == scope) k),
    of_done trivial (Nat.le_refl _)⟩

end Unaware

end Eval

/-! ## Grammars that are not gone -/

namespace Knot

variable {ι : Type} {τ : ι → Type} {grammar : Knot τ} {gone : Nat → Bool}

/-- **A grammar that is not gone** is alive afterwards if and only if it was before. -/
theorem ensureLive_unaware (h : gone grammar.name.scope = false) :
    grammar.ensureLive.Unaware gone fun _ => True := by
  intro n k _
  have hiff : grammar.name.scope ∈ (k.without gone).live ↔ grammar.name.scope ∈ k.live := by
    simp [Knots.without, h]
  by_cases hlive : grammar.name.scope ∈ k.live
  · have hdone : grammar.ensureLive n k = .done () [] k := by
      simp [ensureLive, Eval.bind_apply, Eval.knots, Outcome.after, hlive]
    have hdone' : grammar.ensureLive n (k.without gone) = .done () [] (k.without gone) := by
      simp [ensureLive, Eval.bind_apply, Eval.knots, Outcome.after, hiff.mpr hlive]
    rw [hdone, hdone']
    exact ⟨rfl, Eval.Unaware.of_done trivial (Nat.le_refl _)⟩
  · have hstop : ∀ k : Knots, grammar.name.scope ∉ k.live →
        grammar.ensureLive n k = .fault .releasedGrammar [] k := fun k hk => by
      simp [ensureLive, Eval.bind_apply, Eval.knots, Outcome.after, hk, Eval.stop]
    rw [hstop k hlive, hstop (k.without gone) (mt hiff.mp hlive)]
    exact ⟨rfl, fun _ _ _ hend => absurd hend (by simp)⟩

/-- Rules are built of handles, and no handle is run on the way. -/
theorem buildRules_unaware (handles : (j : ι) → Parser (τ j)) (index : Nat) (is : List ι) :
    (grammar.buildRules handles index is).Unaware gone fun _ => True := by
  induction is generalizing index with
  | nil => exact .pure trivial
  | cons i is ih =>
    exact .bind (.emit _) fun _ _ => .bind (.ofExcept fun _ _ => trivial) fun _ _ => ih (index + 1)

/-- **A grammar that is not gone is tied in both states or in neither.** If it is not, its
rules are built in both and it is remembered in both. -/
theorem tie_unaware (h : gone grammar.name.scope = false) (handles : (j : ι) → Parser (τ j)) :
    (grammar.tie handles).Unaware gone fun _ => True := by
  intro n k hk
  have hiff : grammar.name ∈ (k.without gone).tied ↔ grammar.name ∈ k.tied := by
    simp [Knots.without, h]
  by_cases htied : grammar.name ∈ k.tied
  · have hdone : ∀ k : Knots, grammar.name ∈ k.tied → grammar.tie handles n k = .done () [] k :=
      fun k hk => by simp [tie, Eval.bind_apply, Eval.knots, Outcome.after, hk]
    rw [hdone k htied, hdone (k.without gone) (hiff.mpr htied)]
    exact ⟨rfl, Eval.Unaware.of_done trivial (Nat.le_refl _)⟩
  · -- the rules are built, and then the grammar is one of those that are tied
    let remember : Eval Unit :=
      Eval.modifyKnots fun k => ⟨k.nextScope, k.live, grammar.name :: k.tied⟩
    have hremember : remember.Unaware gone fun _ => True := by
      intro n k _
      refine ⟨?_, Eval.Unaware.of_done trivial (Nat.le_refl _)⟩
      simp [remember, Eval.modifyKnots, Outcome.without, Knots.without, h]
    have hbuild : ∀ k : Knots, grammar.name ∉ k.tied → grammar.tie handles n k
        = (Eval.emit (.materializing grammar.name) >>= fun _ =>
            grammar.buildRules handles 0 grammar.order >>= fun _ => remember) n k := fun k hk => by
      simp [tie, Eval.bind_apply, Eval.knots, hk, remember]
    rw [hbuild k htied, hbuild (k.without gone) (mt hiff.mp htied)]
    exact Eval.Unaware.bind (.emit _) (fun _ _ => .bind (buildRules_unaware handles 0 _)
      fun _ _ => hremember) n k hk

end Knot

/-! ## Scans, environments and replies -/

/-- **A scan that does not notice** whether the scopes are gone. -/
def Scan.Unaware (gone : Nat → Bool) (scan : Scan) : Prop :=
  ∀ subject n, (scan subject n).Unaware gone fun _ => True

/-- What is skipped, and what may follow a keyword, does not notice. -/
def Env.Unaware (gone : Nat → Bool) (env : Env) : Prop :=
  ∀ scan, env.skip = some scan ∨ env.follow = some scan → scan.Unaware gone

/-- A success goes on in an environment that does not notice. -/
def Reply.Unaware {α : Type} (gone : Nat → Bool) : Reply α → Prop
  | .ok env _ _ => env.Unaware gone
  | .fail _ _ => True

/-- In a bare environment there is no scan that could notice. -/
theorem Env.Unaware.new (gone : Nat → Bool) (subject : Text) : (Env.new subject).Unaware gone := by
  rintro scan (h | h) <;> exact absurd h (by simp [Env.new])

/-- **What is done with a reply** in an environment that does not notice. -/
theorem Eval.Unaware.bindReply {α β : Type} {gone : Nat → Bool} {x : Eval (Reply α)}
    {f : Reply α → Eval β} {Q : β → Prop} (hx : x.Unaware gone (Reply.Unaware gone))
    (hok : ∀ env stop a, env.Unaware gone → (f (.ok env stop a)).Unaware gone Q)
    (hfail : ∀ message about, (f (.fail message about)).Unaware gone Q) :
    (x >>= f).Unaware gone Q := by
  refine .bind hx fun reply hreply => ?_
  cases reply with
  | ok env stop a => exact hok env stop a hreply
  | fail message about => exact hfail message about

/-- What is skipped is found by one scan of the environment. -/
theorem Env.Unaware.skipFrom {gone : Nat → Bool} {env : Env} (henv : env.Unaware gone) (n : Nat) :
    (env.skipFrom n).Unaware gone fun _ => True := by
  unfold Env.skipFrom
  cases hskip : env.skip with
  | none => exact .pure trivial
  | some scan =>
    refine .bind (henv scan (.inl hskip) env.subject n) fun stop _ => ?_
    cases stop with
    | none => exact .pure trivial
    | some stop => exact .pure trivial

namespace Parser

variable {α β γ δ : Type} {gone : Nat → Bool}

/-- **A parser that does not notice** whether the scopes are gone, in environments that
do not, and hands on such environments. -/
def Unaware (gone : Nat → Bool) (p : Parser α) : Prop :=
  ∀ ⦃env⦄, env.Unaware gone → ∀ n, (p.run env n).Unaware gone (Reply.Unaware gone)

namespace Unaware

/-- What is left of such a parser is such a scan. -/
theorem scan {p : Parser α} (hp : p.Unaware gone) : p.scan.Unaware gone :=
  fun subject n => .bindReply (hp (.new gone subject) n) (fun _ _ _ _ => .pure trivial)
    fun _ _ => .pure trivial

/-! ## Parsers that are not made of others -/

theorem succeed (a : α) : (Parser.succeed a).Unaware gone := fun _ henv _ => .pure henv

theorem fail (message : String) : (Parser.fail message : Parser α).Unaware gone :=
  fun _ _ _ => .pure trivial

theorem position : Parser.position.Unaware gone := fun _ henv _ => .pure henv

/-- The position is looked up in the subject, which no scope has a part in. -/
theorem moveTo (target : Nat) : (Parser.moveTo target).Unaware gone := by
  intro env henv n
  unfold Parser.moveTo
  simp only []
  split
  · exact .pure henv
  · exact .pure trivial

/-- Once the skip has ended, what is read depends on the subject alone. -/
theorem token (read : Reader) (message : String) : (Parser.token read message).Unaware gone := by
  intro env henv n
  refine .bind (henv.skipFrom n) fun start _ => ?_
  cases (env.from? start).bind read with
  | none => exact .pure trivial
  | some m => exact .pure henv

theorem endWith (message : String) : (Parser.endWith message).Unaware gone := by
  intro env henv n
  refine .bind (henv.skipFrom n) fun start _ => ?_
  split
  · exact .pure henv
  · exact .pure trivial

/-- **Where a keyword may end, both scans of the environment are asked**: the one for what
may follow and the one for what is skipped. -/
theorem mayEndAt {env : Env} (henv : env.Unaware gone) (n : Nat) :
    (Parser.mayEndAt env n).Unaware gone fun _ => True := by
  unfold Parser.mayEndAt
  cases hfollow : env.follow with
  | none => exact .pure trivial
  | some follow =>
    simp only []
    split
    · exact .pure trivial
    · refine .bind (henv.skipFrom n) fun stop _ => ?_
      split
      · exact .pure trivial
      · exact .bind (henv follow (.inr hfollow) env.subject n) fun _ _ => .pure trivial

/-- First the keyword is read, then it is asked whether it may end there. -/
theorem bounded {p : Parser String} (hp : p.Unaware gone) (message : String) :
    (p.bounded message).Unaware gone := by
  intro env henv n
  refine .bindReply (hp henv n) (fun env' stop text henv' => ?_) fun _ _ => .pure trivial
  refine .bind (mayEndAt henv' stop) fun may _ => ?_
  split
  · exact .pure henv'
  · exact .bind (.emit _) fun _ _ => .pure trivial

/-! ## Sequences -/

/-- What comes second runs in the environment that was handed on, and that one does not
notice. -/
theorem bind {p : Parser α} {f : α → Parser β} (hp : p.Unaware gone)
    (hf : ∀ a, (f a).Unaware gone) : (p.bind f).Unaware gone :=
  fun _ henv n => .bindReply (hp henv n) (fun _ stop a henv' => hf a henv' stop)
    fun _ _ => .pure trivial

theorem map {p : Parser α} (f : α → β) (hp : p.Unaware gone) : (p.map f).Unaware gone := by
  rw [map_eq_bind]
  exact hp.bind fun a => succeed (f a)

theorem bindMap {p : Parser α} {k : α → Parser β} (f : α → β → γ) (hp : p.Unaware gone)
    (hk : ∀ a, (k a).Unaware gone) : (p.bindMap k f).Unaware gone := by
  rw [bindMap_eq_bind]
  exact hp.bind fun a => (hk a).map (f a)

theorem seqRight {p : Parser α} {q : Parser β} (hp : p.Unaware gone) (hq : q.Unaware gone) :
    (p.seqRight q).Unaware gone :=
  hp.bind fun _ => hq

theorem seqLeft {p : Parser α} {q : Parser β} (hp : p.Unaware gone) (hq : q.Unaware gone) :
    (p.seqLeft q).Unaware gone := by
  rw [seqLeft_eq_bind]
  exact hp.bind fun a => hq.map fun _ => a

/-! ## Parsers that go back -/

/-- The induction is on the alternatives. Each begins in the environment of the call. -/
theorem firstOf {ps : List (Parser α)} (hps : ∀ p ∈ ps, p.Unaware gone) {env : Env}
    (henv : env.Unaware gone) (n index : Nat) {failure : Reply α}
    (hfailure : failure.Unaware gone) :
    (Parser.firstOf index failure ps env n).Unaware gone (Reply.Unaware gone) := by
  induction ps generalizing index failure with
  | nil => exact .pure hfailure
  | cons p ps ih =>
    refine .bindReply (hps p List.mem_cons_self henv n) (fun _ _ _ henv' => .pure henv')
      fun message about => .bind (.emit _) fun _ _ => ?_
    exact ih (fun q hq => hps q (List.mem_cons_of_mem p hq)) (index + 1)
      trivial

theorem choice {ps : List (Parser α)} (hps : ∀ p ∈ ps, p.Unaware gone) :
    (Parser.choice ps).Unaware gone :=
  fun _ henv n => firstOf hps henv n 0 trivial

theorem orElse {p q : Parser α} (hp : p.Unaware gone) (hq : q.Unaware gone) :
    (p.orElse q).Unaware gone :=
  fun _ henv n => .bindReply (hp henv n) (fun _ _ _ henv' => .pure henv')
    fun _ _ => .bind (.emit _) fun _ _ => hq henv n

theorem withDefault {p : Parser α} (hp : p.Unaware gone) (default : α) :
    (p.withDefault default).Unaware gone :=
  fun _ henv n => .bindReply (hp henv n) (fun _ _ _ henv' => .pure henv')
    fun _ _ => .pure henv

theorem optional {p : Parser α} (hp : p.Unaware gone) : p.optional.Unaware gone :=
  (hp.map some).withDefault none

/-- A lookahead hands on the environment of its parser. -/
theorem lookahead {p : Parser α} (hp : p.Unaware gone) : p.lookahead.Unaware gone :=
  fun _ henv n => .bindReply (hp henv n) (fun _ _ _ henv' => .pure henv')
    fun _ _ => .pure trivial

/-- A negation hands on the environment of its call. -/
theorem notAhead {p : Parser α} (hp : p.Unaware gone) : p.notAhead.Unaware gone :=
  fun _ henv n => .bindReply (hp henv n) (fun _ _ _ _ => .pure trivial) fun _ _ => .pure henv

theorem filter {p : Parser α} (hp : p.Unaware gone) (accept : α → Bool) :
    (p.filter accept).Unaware gone := by
  intro env henv n
  refine .bindReply (hp henv n) (fun env' stop a henv' => ?_) fun _ _ => .pure trivial
  simp only []
  split
  · exact .pure henv'
  · exact .pure trivial

/-- A message that has become empty stops the run in either state. -/
theorem mapFailure {p : Parser α} (hp : p.Unaware gone)
    (f : String → Option Nat → String × Option Nat) : (p.mapFailure f).Unaware gone := by
  intro env henv n
  refine .bindReply (hp henv n) (fun _ _ _ henv' => .pure henv') fun message about => ?_
  show (if (f message about).1.isEmpty then Eval.stop .emptyMessage
    else Pure.pure (Reply.fail (f message about).1 (f message about).2)).Unaware gone _
  split
  · exact .stop _
  · exact .pure trivial

theorem mapMessage {p : Parser α} (hp : p.Unaware gone) (f : String → String) :
    (p.mapMessage f).Unaware gone :=
  hp.mapFailure _

theorem mapMessageAt {p : Parser α} (hp : p.Unaware gone) (f : String → String)
    (g : Option Nat → Nat) : (p.mapMessageAt f g).Unaware gone :=
  hp.mapFailure _

/-! ## Repetition -/

/-- A round that is done goes on in the environment of its item; one that is not hands on
nothing. -/
theorem round {item : Parser α} {delimiter : Parser δ} (hitem : item.Unaware gone)
    (hdelimiter : delimiter.Unaware gone) {env : Env} (henv : env.Unaware gone) (n : Nat) :
    (Parser.round item delimiter env n).Unaware gone fun r =>
      ∀ r', r = some r' → r'.env.Unaware gone := by
  have hend : ∀ reason, (Eval.emit reason >>= fun _ =>
      (Pure.pure none : Eval (Option (Round δ α)))).Unaware gone fun r =>
        ∀ r', r = some r' → r'.env.Unaware gone :=
    fun _ => .bind (.emit _) fun _ _ => .pure (by simp)
  refine .bindReply (hdelimiter henv n) (fun env₁ middle d henv₁ => ?_) fun _ _ => hend _
  refine .bindReply (hitem henv₁ middle) (fun env₂ stop a henv₂ => ?_) fun _ _ => hend _
  simp only []
  split
  · exact .pure fun r' hr' => Option.some.inj hr' ▸ henv₂
  · exact hend _

/-- A chain of rounds. The induction is on the rounds that are allowed. -/
theorem rounds {item : Parser α} {delimiter : Parser δ} (hitem : item.Unaware gone)
    (hdelimiter : delimiter.Unaware gone) (left : Nat) {env : Env} (henv : env.Unaware gone)
    (n : Nat) :
    (Parser.rounds item delimiter left env n).Unaware gone fun chain =>
      ∀ a, (Round.reply env n chain a).Unaware gone := by
  induction left generalizing env n with
  | zero =>
    unfold Parser.rounds
    refine .bind (round hitem hdelimiter henv n) fun r _ => ?_
    cases r <;> exact .pure fun _ => henv
  | succ left ih =>
    unfold Parser.rounds
    refine .bind (round hitem hdelimiter henv n) fun r hr => ?_
    cases r with
    | none => exact .pure fun _ => henv
    | some r => exact .bind (ih (hr r rfl) r.stop) fun chain hchain => .pure hchain

/-- **However the values are folded**, what follows goes on in the environment of the last
round. -/
theorem repetition {item : Parser α} {delimiter : Parser δ} (hitem : item.Unaware gone)
    (hdelimiter : delimiter.Unaware gone) (value : α → List (Round δ α) → α) :
    (Parser.repetition item delimiter value).Unaware gone :=
  fun _ henv n => .bindReply (hitem henv n)
    (fun _ _ _ henv' => .bind (rounds hitem hdelimiter _ henv' _) fun _ hchain => .pure (hchain _))
    fun _ _ => .pure trivial

theorem foldSep {item : Parser α} {delimiter : Parser δ} (hitem : item.Unaware gone)
    (hdelimiter : delimiter.Unaware gone) (f : α → δ → α → α) :
    (item.foldSep delimiter f).Unaware gone := by
  rw [foldSep_eq_repetition]
  exact hitem.repetition hdelimiter _

theorem foldSepRight {item : Parser α} {delimiter : Parser δ} (hitem : item.Unaware gone)
    (hdelimiter : delimiter.Unaware gone) (f : α → δ → α → α) :
    (item.foldSepRight delimiter f).Unaware gone := by
  rw [foldSepRight_eq_repetition]
  exact hitem.repetition hdelimiter _

/-- Adjacent items have an empty text between them. -/
theorem foldMany1 {item : Parser α} (hitem : item.Unaware gone) (f : α → α → α) :
    (item.foldMany1 f).Unaware gone :=
  hitem.foldSep (token _ _) _

/-! ## Other environments and other texts -/

/-- **A change of environment** that does not notice, and makes an environment that
does not. -/
theorem inEnvM {p : Parser α} {change : Env → Eval Env} (hp : p.Unaware gone)
    (hchange : ∀ env, env.Unaware gone → (change env).Unaware gone (Env.Unaware gone)) :
    (p.inEnvM change).Unaware gone :=
  fun env henv n => .bind (hchange env henv) fun _ henv' => .bindReply (hp henv' n)
    (fun _ _ _ _ => .pure henv) fun _ _ => .pure trivial

/-- A change that runs nothing is a change that notices nothing. -/
theorem inEnv {p : Parser α} {change : Env → Env} (hp : p.Unaware gone)
    (hchange : ∀ env, env.Unaware gone → (change env).Unaware gone) :
    (p.inEnv change).Unaware gone := by
  rw [Construction.inEnv_eq_inEnvM]
  exact hp.inEnvM fun env henv => .pure (hchange env henv)

/-- Another text is read with the scans of the environment that it replaces. -/
theorem onText {p : Parser α} (hp : p.Unaware gone) (subject : Text) :
    (p.onText subject).Unaware gone := by
  intro env henv n
  have hother : (env.withSubject subject).Unaware gone := henv
  exact .bindReply (hp hother 0) (fun _ _ _ _ => .pure henv) fun _ _ => .pure trivial

/-! ## Grammars that are built during the run, and recursive grammars -/

/-- **A part that is built on the spot** owns a scope that is not gone. -/
theorem fresh {build : Nat → Except Fault (Parser α)}
    (hbuild : ∀ scope p, gone scope = false → build scope = .ok p → p.Unaware gone) :
    (Parser.fresh build).Unaware gone := by
  intro env henv n
  refine .bind .openScope fun scope hscope => ?_
  refine .bind (.ofExcept fun p hp => hbuild scope p hscope hp) fun p hp => ?_
  exact .bind (hp henv n) fun reply hreply => .bind (.closeScope scope) fun _ _ => .pure hreply

/-- **A recursive grammar that is not gone**, with rules that do not notice, given
handles that do not. The induction is on the calls that are left. -/
theorem entry {ι : Type} {τ : ι → Type} {grammar : Knot τ} (hname : gone grammar.name.scope = false)
    (hrules : ∀ handles : Parsers τ, (∀ j, (handles j).Unaware gone) →
      ∀ i p, grammar.rule i handles = .ok p → p.Unaware gone) (i : ι) :
    (grammar.entry i).Unaware gone := by
  have hcall : ∀ budget i, (⟨grammar.call budget i⟩ : Parser (τ i)).Unaware gone := by
    intro budget
    induction budget with
    | zero => exact fun _ _ _ _ => .giveUp
    | succ budget ih =>
      intro i env henv n
      refine .bind (Knot.tie_unaware hname _) fun _ _ => ?_
      refine .bind (.ofExcept (hrules _ (fun j env henv n => ?_) i)) fun p hp =>
        .withBudget (hp henv n)
      exact .bind (Knot.ensureLive_unaware hname) fun _ _ => ih j henv n
  exact fun env henv n => .bind .budget fun budget _ => hcall budget i henv n

end Unaware

end Parser

/-! ## Literals and other primitives -/

namespace Literal

open Descent.Parser

variable {gone : Nat → Bool}

theorem Unaware.digits (pattern : String) (accept : Char → Bool) (base : Nat) :
    (digits pattern accept base).Unaware gone := by
  refine .bind (.token (Reader.run1 accept) _) fun text => ?_
  show Parser.Unaware gone (if _ then _ else _)
  split
  · exact .succeed _
  · exact .fail _

/-- The readers of numerals are tokens in a choice, each with its marker in front. -/
theorem Unaware.magnitude (format : NumberFormat) : (magnitude format).Unaware gone := by
  have marked : ∀ {marker : String} {p : Parser Nat}, p.Unaware gone →
      ((Parser.string marker).seqRight p).Unaware gone := fun hp => .seqRight (.token _ _) hp
  exact magnitude_induction .orElse (marked (Unaware.digits _ _ _))
    (marked (Unaware.digits _ _ _)) (marked (Unaware.digits _ _ _)) (Unaware.digits _ _ _) format

/-- The position of the sign is remembered for the failures of what stands behind it. -/
theorem Unaware.number (format : NumberFormat) : (number format).Unaware gone :=
  .bind .position fun _ => .bind (.withDefault (.token _ _) _) fun _ =>
    .map _ (.bind (.mapMessageAt (Unaware.magnitude format) _ _) fun _ => .succeed _)

/-- What is read may mean no text, and then there is a failure. -/
theorem Unaware.decoded (read : Reader) (pattern : String) (meaning : Text → Option Text) :
    (decoded read pattern meaning).Unaware gone := by
  intro env henv n
  have htoken : (Parser.token read ("Does not match pattern " ++ pattern)).Unaware gone :=
    .token _ _
  refine .bindReply (htoken henv n) (fun env' stop text henv' => ?_) fun _ _ => .pure trivial
  simp only []
  split
  · exact .pure henv'
  · exact .pure trivial

theorem Unaware.fragment (quote : Char) (escape : Escape) (format : StringFormat) :
    (fragment quote escape format).Unaware gone :=
  fragment_induction .orElse (fun _ => Unaware.decoded _ _ _) (Unaware.decoded _ _ _)
    (.map _ (.token _ _))

/-- Inside the quotes nothing is skipped. What may follow a keyword is as it was outside. -/
theorem Unaware.quotedWith (quote : Char) (escape : Escape) (format : StringFormat)
    (message : String) : (quotedWith quote escape format message).Unaware gone := by
  have hquote : (Parser.string (String.singleton quote)).Unaware gone := .token _ _
  have hfragments : ((Literal.fragment quote escape format).foldMany (fun a b => a ++ b)
      []).Unaware gone :=
    .withDefault (.foldMany1 (Unaware.fragment quote escape format) _) _
  refine .mapMessage (.map _ (.seqRight hquote ?_)) _
  refine .inEnv (.seqLeft hfragments hquote) fun env henv scan hscan => ?_
  obtain h | h := hscan
  · exact absurd h (by simp [Env.withoutSkip, Env.withSkip])
  · exact henv scan (.inr h)

end Literal

namespace Construction

end Construction

end Descent
