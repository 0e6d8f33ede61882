import Descent.Proofs.Distribution
import Descent.Proofs.Prefix
import Descent.Proofs.Tying

/-!
# Only keywords see what may follow

What may follow a keyword is asked for where a keyword ends, and nowhere else. A
grammar without keywords is therefore the same in an environment where something
else may follow (`Construction.keyless_run`): it returns or not as before, with the
same reply and the same events.

**A change that changes nothing.** `Parser.IgnoresFollow` says it as an equation,
between a parser and that parser in the changed environment. So the proof is the
distribution of a change of environment over a grammar, read as: a parser ignores the
change if its parts do. Only tokens are compared with themselves.

**Environments on the way.** A grammar may change the environment of its parts, and
what may follow along with it. Steps that make an environment end in environments that
differ in what may follow, if they begin in such (`Env.withFollow_make`): none of the
steps puts it anywhere else. Nothing is asked of what is skipped. It runs in a bare
environment, where nothing is said about keywords, so it may have keywords of its own
and be written by hand.
-/

namespace Descent

/-! ## Making environments -/

/-- A step in making an environment from another, over the same text or another one. -/
inductive Env.Step (J : Type) where
  | adjust (step : Env.Adjustment J)
  | withSubject (subject : Text)

/-- The environment after a step. -/
def Env.Step.apply {J : Type} (scans : J → Scan) : Env.Step J → Env → Env
  | adjust step, env => step.apply scans env
  | withSubject subject, env => env.withSubject subject

namespace Env

variable {J : Type} (scans : J → Scan)

/-- The environment after some steps, one after the other. -/
def make (steps : List (Step J)) (env : Env) : Env :=
  steps.foldl (fun env step => step.apply scans env) env

theorem Step.withFollow_apply (step : Step J) (env : Env) (follow : Option Scan) :
    ∃ follow', step.apply scans (env.withFollow follow)
      = (step.apply scans env).withFollow follow' := by
  cases step with
  | adjust step =>
    cases step with
    | withSkip skip => exact ⟨follow, rfl⟩
    | withFollow given => exact ⟨given.map scans, rfl⟩
    | withoutSkip => exact ⟨follow, rfl⟩
    | bare => exact ⟨none, rfl⟩
  | withSubject subject => exact ⟨follow, rfl⟩

/-- **What may follow stays in its place** in whatever environment is made. -/
theorem withFollow_make (steps : List (Step J)) (env : Env) (follow : Option Scan) :
    ∃ follow', (env.withFollow follow).make scans steps
      = (env.make scans steps).withFollow follow' := by
  induction steps generalizing env follow with
  | nil => exact ⟨follow, rfl⟩
  | cons step steps ih =>
    obtain ⟨follow₁, hstep⟩ := step.withFollow_apply scans env follow
    obtain ⟨follow₂, hsteps⟩ := ih (step.apply scans env) follow₁
    exact ⟨follow₂, (congrArg (·.make scans steps) hstep).trans hsteps⟩

end Env

namespace Parser

variable {α β γ δ : Type}

/-- **The parser is the same where something else may follow a keyword.** -/
def IgnoresFollow (p : Parser α) : Prop := ∀ follow, p.inEnv (·.withFollow follow) = p

namespace IgnoresFollow

/-- What is the same in another environment hands on the one of its call. -/
theorem keepsEnv {p : Parser α} (hp : p.IgnoresFollow) : p.KeepsEnv :=
  hp none ▸ .inEnv p _

/-- **What is done with a reply** may be done with that of the other environment. -/
theorem run_bind {p : Parser α} (hp : p.IgnoresFollow) (env : Env) (n : Nat)
    (follow : Option Scan) (f : Reply α → Eval β) :
    p.run env n >>= f = p.run (env.withFollow follow) n >>= fun reply => f (reply.rebase env) :=
  (congrArg (fun q : Parser α => q.run env n >>= f) (hp follow).symm).trans
    (inEnv_run_bind (·.withFollow follow) p env n f)

/-- The reply in an environment is that of the other one, taken back. -/
theorem run_eq {p : Parser α} (hp : p.IgnoresFollow) (env : Env) (n : Nat)
    (follow : Option Scan) :
    p.run env n = p.run (env.withFollow follow) n >>= fun reply => pure (reply.rebase env) :=
  congrArg (fun q : Parser α => q.run env n) (hp follow).symm

/-! ## Parsers that are not made of others -/

theorem succeed (a : α) : (Parser.succeed a).IgnoresFollow := fun _ => rfl

theorem fail (message : String) : (Parser.fail message : Parser α).IgnoresFollow := fun _ => rfl

theorem position : Parser.position.IgnoresFollow := fun _ => rfl

theorem moveTo (target : Nat) : (Parser.moveTo target).IgnoresFollow := by
  intro follow
  ext env n
  show (if (env.from? target).isSome then _ else _) >>= _
    = (if (env.from? target).isSome then _ else _)
  split <;> exact Eval.pure_bind _ _

/-- **A token does not ask what may follow**: it skips, and reads. -/
theorem token (read : Reader) (message : String) : (Parser.token read message).IgnoresFollow := by
  intro follow
  ext env n
  refine (Eval.bind_assoc (env.skipFrom n) _ _).trans
    (congrArg (env.skipFrom n >>= ·) (funext fun start => ?_))
  have hread : ((env.withFollow follow).from? start).bind read = (env.from? start).bind read := rfl
  rw [hread]
  cases (env.from? start).bind read <;> exact Eval.pure_bind _ _

theorem endWith (message : String) : (Parser.endWith message).IgnoresFollow := by
  intro follow
  ext env n
  refine (Eval.bind_assoc (env.skipFrom n) _ _).trans
    (congrArg (env.skipFrom n >>= ·) (funext fun start => ?_))
  show (if env.length ≤ start then _ else _) >>= _ = _
  split <;> exact Eval.pure_bind _ _

/-! ## Sequences -/

theorem bind {p : Parser α} {f : α → Parser β} (hp : p.IgnoresFollow)
    (hf : ∀ a, (f a).IgnoresFollow) : (p.bind f).IgnoresFollow := by
  intro follow
  rw [bind_inEnv _ hp.keepsEnv, hp follow]
  exact congrArg p.bind (funext fun a => hf a follow)

theorem map {p : Parser α} (f : α → β) (hp : p.IgnoresFollow) : (p.map f).IgnoresFollow := by
  rw [map_eq_bind]
  exact hp.bind fun a => succeed (f a)

theorem bindMap {p : Parser α} {k : α → Parser β} (f : α → β → γ) (hp : p.IgnoresFollow)
    (hk : ∀ a, (k a).IgnoresFollow) : (p.bindMap k f).IgnoresFollow := by
  rw [bindMap_eq_bind]
  exact hp.bind fun a => (hk a).map (f a)

theorem seqRight {p : Parser α} {q : Parser β} (hp : p.IgnoresFollow) (hq : q.IgnoresFollow) :
    (p.seqRight q).IgnoresFollow :=
  hp.bind fun _ => hq

theorem seqLeft {p : Parser α} {q : Parser β} (hp : p.IgnoresFollow) (hq : q.IgnoresFollow) :
    (p.seqLeft q).IgnoresFollow := by
  rw [seqLeft_eq_bind]
  exact hp.bind fun a => hq.map fun _ => a

/-! ## Parsers that go back -/

theorem choice {ps : List (Parser α)} (hps : ∀ p ∈ ps, p.IgnoresFollow) :
    (Parser.choice ps).IgnoresFollow := by
  intro follow
  rw [choice_inEnv, List.map_congr_left fun p hp => hps p hp follow, List.map_id']

theorem orElse {p q : Parser α} (hp : p.IgnoresFollow) (hq : q.IgnoresFollow) :
    (p.orElse q).IgnoresFollow := by
  intro follow
  rw [orElse_inEnv, hp follow, hq follow]

theorem withDefault {p : Parser α} (hp : p.IgnoresFollow) (default : α) :
    (p.withDefault default).IgnoresFollow := by
  intro follow
  rw [withDefault_inEnv, hp follow]

theorem optional {p : Parser α} (hp : p.IgnoresFollow) : p.optional.IgnoresFollow := by
  intro follow
  rw [optional_inEnv, hp follow]

theorem lookahead {p : Parser α} (hp : p.IgnoresFollow) : p.lookahead.IgnoresFollow := by
  intro follow
  rw [lookahead_inEnv, hp follow]

theorem notAhead {p : Parser α} (hp : p.IgnoresFollow) : p.notAhead.IgnoresFollow := by
  intro follow
  rw [notAhead_inEnv, hp follow]

theorem filter {p : Parser α} (hp : p.IgnoresFollow) (accept : α → Bool) :
    (p.filter accept).IgnoresFollow := by
  intro follow
  ext env n
  refine (inEnv_run_bind_any _ (p := p) fun reply => ?_).trans
    (congrArg (fun q : Parser α => (q.filter accept).run env n) (hp follow))
  cases reply with
  | ok env' stop a =>
    simp only [Reply.rebase]
    split <;> exact Eval.pure_bind _ _
  | fail message about => exact Eval.pure_bind _ _

theorem mapFailure {p : Parser α} (hp : p.IgnoresFollow)
    (f : String → Option Nat → String × Option Nat) : (p.mapFailure f).IgnoresFollow := by
  intro follow
  ext env n
  refine (inEnv_run_bind_any _ (p := p) fun reply => ?_).trans
    (congrArg (fun q : Parser α => (q.mapFailure f).run env n) (hp follow))
  cases reply with
  | ok env' stop a => exact Eval.pure_bind _ _
  | fail message about =>
    show (if (f message about).1.isEmpty then _ else _) >>= _
      = (if (f message about).1.isEmpty then _ else _)
    split
    · rfl
    · exact Eval.pure_bind _ _

theorem mapMessage {p : Parser α} (hp : p.IgnoresFollow) (f : String → String) :
    (p.mapMessage f).IgnoresFollow :=
  hp.mapFailure _

theorem mapMessageAt {p : Parser α} (hp : p.IgnoresFollow) (f : String → String)
    (g : Option Nat → Nat) : (p.mapMessageAt f g).IgnoresFollow :=
  hp.mapFailure _

/-! ## Repetition -/

theorem foldSep {item : Parser α} {delimiter : Parser δ} (hitem : item.IgnoresFollow)
    (hdelimiter : delimiter.IgnoresFollow) (f : α → δ → α → α) :
    (item.foldSep delimiter f).IgnoresFollow := by
  intro follow
  rw [foldSep_inEnv _ hitem.keepsEnv hdelimiter.keepsEnv, hitem follow, hdelimiter follow]

theorem foldSepRight {item : Parser α} {delimiter : Parser δ} (hitem : item.IgnoresFollow)
    (hdelimiter : delimiter.IgnoresFollow) (f : α → δ → α → α) :
    (item.foldSepRight delimiter f).IgnoresFollow := by
  intro follow
  rw [foldSepRight_inEnv _ hitem.keepsEnv hdelimiter.keepsEnv, hitem follow, hdelimiter follow]

/-- The empty text between adjacent items is a token. -/
theorem foldMany1 {item : Parser α} (hitem : item.IgnoresFollow) (f : α → α → α) :
    (item.foldMany1 f).IgnoresFollow :=
  hitem.foldSep (token _ _) _

/-! ## Other environments and other texts -/

/-- **An environment that is made** of one where something else may follow differs in
what may follow, and its part ignores that. -/
theorem inEnv {p : Parser α} (hp : p.IgnoresFollow) {J : Type} (scans : J → Scan)
    (steps : List (Env.Step J)) : (p.inEnv (·.make scans steps)).IgnoresFollow := by
  intro follow
  rw [inEnv_inEnv]
  ext env n
  obtain ⟨follow', hmake⟩ := env.withFollow_make scans steps follow
  have hpart := hp.run_bind (env.make scans steps) n follow' fun reply =>
    (pure (reply.rebase env) : Eval (Reply α))
  simp only [Reply.rebase_rebase, ← hmake] at hpart
  exact hpart.symm

theorem onText {p : Parser α} (hp : p.IgnoresFollow) (subject : Text) :
    (p.onText subject).IgnoresFollow := by
  intro follow
  ext env n
  refine Eq.trans ?_ (hp.run_bind (env.withSubject subject) 0 follow _).symm
  refine (Eval.bind_assoc _ _ _).trans
    (congrArg (p.run ((env.withSubject subject).withFollow follow) 0 >>= ·) (funext fun reply => ?_))
  cases reply <;> exact Eval.pure_bind _ _

/-! ## Grammars that are built during the run, and recursive grammars -/

/-- What is done before a parser is run has nothing to do with the environment. -/
theorem after {x : Eval γ} {p : γ → Parser α} (hp : ∀ a, (p a).IgnoresFollow) :
    (⟨fun env n => x >>= fun a => (p a).run env n⟩ : Parser α).IgnoresFollow := by
  intro follow
  ext env n
  exact (Eval.bind_assoc _ _ _).trans
    (congrArg (x >>= ·) (funext fun a => ((hp a).run_eq env n follow).symm))

/-- Nor has whether there is a parser. -/
theorem ofExcept {e : Except Fault γ} {p : γ → Parser α}
    (he : ∀ a, e = .ok a → (p a).IgnoresFollow) :
    (⟨fun env n => Eval.ofExcept e >>= fun a => (p a).run env n⟩ : Parser α).IgnoresFollow := by
  cases e with
  | error cause => exact fun _ => rfl
  | ok a =>
    have hpure : (⟨fun env n => Eval.ofExcept (.ok a) >>= fun a => (p a).run env n⟩ : Parser α)
        = p a := by
      ext env n
      exact Eval.pure_bind a _
    exact hpure ▸ he a rfl

/-- Nor what is done after it. -/
theorem before {p : Parser α} (hp : p.IgnoresFollow) (y : Eval Unit) :
    (⟨fun env n => p.run env n >>= fun reply => y >>= fun _ => pure reply⟩ :
      Parser α).IgnoresFollow := by
  intro follow
  ext env n
  refine Eq.trans ?_ (hp.run_bind env n follow _).symm
  refine (Eval.bind_assoc _ _ _).trans
    (congrArg (p.run (env.withFollow follow) n >>= ·) (funext fun reply => ?_))
  exact (Eval.bind_assoc _ _ _).trans (congrArg (y >>= ·) (funext fun _ => Eval.pure_bind _ _))

theorem withBudget {p : Parser α} (hp : p.IgnoresFollow) (budget : Nat) :
    (⟨fun env n => Eval.withBudget budget (p.run env n)⟩ : Parser α).IgnoresFollow := by
  intro follow
  ext env n
  exact congrArg (Eval.withBudget budget) (hp.run_eq env n follow).symm

theorem fresh {build : Nat → Except Fault (Parser α)}
    (hbuild : ∀ scope p, build scope = .ok p → p.IgnoresFollow) :
    (Parser.fresh build).IgnoresFollow :=
  after fun scope => ofExcept fun p hp => before (hbuild scope p hp) _

/-- **A recursive grammar ignores what may follow if its rules do**, given handles that
do. The induction is on the calls that are left. -/
theorem entry {ι : Type} {τ : ι → Type} {grammar : Knot τ}
    (hrules : ∀ handles : Parsers τ, (∀ j, (handles j).IgnoresFollow) →
      ∀ i p, grammar.rule i handles = .ok p → p.IgnoresFollow) (i : ι) :
    (grammar.entry i).IgnoresFollow := by
  have hcall : ∀ budget i, (⟨grammar.call budget i⟩ : Parser (τ i)).IgnoresFollow := by
    intro budget
    induction budget with
    | zero => exact fun _ _ => rfl
    | succ budget ih =>
      intro i
      have hhandles : ∀ j, (grammar.handlesAt budget j).IgnoresFollow :=
        fun j => after fun _ => ih j
      exact after fun _ =>
        ofExcept fun p hp => withBudget (hrules _ hhandles i p hp) budget
  exact after fun budget => hcall budget i

end IgnoresFollow

end Parser

/-! ## Literals and other primitives -/

namespace Literal

open Descent.Parser

theorem IgnoresFollow.digits (pattern : String) (accept : Char → Bool) (base : Nat) :
    (digits pattern accept base).IgnoresFollow := by
  refine .bind (.token (.run1 accept) _) fun text => ?_
  show Parser.IgnoresFollow (if _ then _ else _)
  split
  · exact .succeed _
  · exact .fail _

theorem IgnoresFollow.magnitude (format : NumberFormat) : (magnitude format).IgnoresFollow := by
  have marked : ∀ {marker : String} {p : Parser Nat}, p.IgnoresFollow →
      ((Parser.string marker).seqRight p).IgnoresFollow := fun hp => .seqRight (.token _ _) hp
  exact magnitude_induction .orElse (marked (IgnoresFollow.digits _ _ _))
    (marked (IgnoresFollow.digits _ _ _)) (marked (IgnoresFollow.digits _ _ _))
    (IgnoresFollow.digits _ _ _) format

theorem IgnoresFollow.number (format : NumberFormat) : (number format).IgnoresFollow :=
  .bind .position fun _ => .bind (.withDefault (.token _ _) _) fun _ =>
    .map _ (.bind (.mapMessageAt (IgnoresFollow.magnitude format) _ _) fun _ => .succeed _)

theorem IgnoresFollow.decoded (read : Reader) (pattern : String)
    (meaning : Text → Option Text) : (decoded read pattern meaning).IgnoresFollow := by
  intro follow
  ext env n
  have htoken : (Parser.token read ("Does not match pattern " ++ pattern)).IgnoresFollow :=
    .token _ _
  refine Eq.trans ?_ (htoken.run_bind env n follow _).symm
  refine (Eval.bind_assoc _ _ _).trans (congrArg
    ((Parser.token read _).run (env.withFollow follow) n >>= ·) (funext fun reply => ?_))
  cases reply with
  | ok env' stop text =>
    simp only [Reply.rebase]
    cases meaning text.toList <;> exact Eval.pure_bind _ _
  | fail message about => exact Eval.pure_bind _ _

theorem IgnoresFollow.fragment (quote : Char) (escape : Escape) (format : StringFormat) :
    (fragment quote escape format).IgnoresFollow :=
  fragment_induction .orElse (fun _ => IgnoresFollow.decoded _ _ _) (IgnoresFollow.decoded _ _ _)
    (.map _ (.token _ _))

/-- Between the quotes nothing is skipped, and what may follow is as it was. -/
theorem IgnoresFollow.quotedWith (quote : Char) (escape : Escape) (format : StringFormat)
    (message : String) : (quotedWith quote escape format message).IgnoresFollow := by
  have hfragments : ((Literal.fragment quote escape format).foldMany (fun a b => a ++ b)
      []).IgnoresFollow :=
    .withDefault (.foldMany1 (IgnoresFollow.fragment quote escape format) _) _
  have hbody : (body quote escape format).IgnoresFollow :=
    .inEnv (.seqLeft hfragments (.token _ _)) (Empty.elim : Empty → Scan) [.adjust .withoutSkip]
  exact .mapMessage (.map _ (.seqRight (.token _ _) hbody)) _

end Literal

namespace Primitive

/-- Not a keyword. -/
def IsKeyless {α : Type} : Primitive α → Prop
  | .key _ _ | .keyIgnoreCase _ _ => False
  | _ => True

/-- **Only keywords ask what may follow.** -/
theorem ignoresFollow {α : Type} (p : Primitive α) (hp : p.IsKeyless) :
    p.parser.IgnoresFollow := by
  cases p with
  | string => exact .token _ _
  | ignoreCase => exact .token _ _
  | pattern text message p valid =>
    obtain ⟨program, rfl⟩ := Parser.exists_matching valid
    exact .token _ message
  | atEnd => exact .endWith _
  | real message =>
    refine .bind (.token .real message) fun text => ?_
    split
    · exact .succeed _
    · exact .fail _
  | key => exact hp.elim
  | keyIgnoreCase => exact hp.elim
  | number => exact Literal.IgnoresFollow.number _
  | quoted => exact Literal.IgnoresFollow.quotedWith _ _ _ _
  | javaIdentifier => exact .token _ _
  | succeed => exact .succeed _
  | fail => exact .fail _
  | position => exact .position
  | moveTo => exact .moveTo _

end Primitive

/-! ## Whatever is built -/

namespace Construction

/-- **The construction has no keywords of its own**, nothing in it is written by hand,
and environments are made in steps. The parsers whose scans are put into environments
may be any, with keywords or written by hand: they are not the grammar's own. -/
def Keyless {V : Type} {Γ : V → Type} {α : Type} : Construction Γ α → Prop
  | handle _ => True
  | primitive p => p.IsKeyless
  | own _ => False
  | unbuilt _ => True
  | map _ p => p.Keyless
  | bind p k => p.Keyless ∧ ∀ a, (k a).Keyless
  | bindMap p k _ => p.Keyless ∧ ∀ a, (k a).Keyless
  | seqRight p q => p.Keyless ∧ q.Keyless
  | seqLeft p q => p.Keyless ∧ q.Keyless
  | choice ps => ∀ i, (ps i).Keyless
  | orElse p q => p.Keyless ∧ q.Keyless
  | withDefault p _ => p.Keyless
  | optional p => p.Keyless
  | lookahead p => p.Keyless
  | notAhead p => p.Keyless
  | filter p _ => p.Keyless
  | mapMessage p _ => p.Keyless
  | mapMessageAt p _ _ => p.Keyless
  | withMessage p _ => p.Keyless
  | foldSep item delimiter _ => item.Keyless ∧ delimiter.Keyless
  | foldSepRight item delimiter _ => item.Keyless ∧ delimiter.Keyless
  | foldMany1 item _ => item.Keyless
  | foldMany item _ _ => item.Keyless
  | inEnv p _ change =>
    p.Keyless ∧ ∃ steps, ∀ scans env, change scans env = pure (env.make scans steps)
  | onText p _ => p.Keyless
  | fresh build => ∀ scope, (build scope).Keyless
  | recursive _ _ rules _ => ∀ i, (rules i).Keyless

/-- **Whatever has no keywords ignores what may follow.** -/
theorem ignoresFollow {V : Type} {Γ : V → Type} {α : Type} (c : Construction Γ α)
    (hc : c.Keyless) {handles : Parsers Γ} (hh : ∀ v, (handles v).IgnoresFollow) :
    (c.parser handles).IgnoresFollow := by
  induction c with
  | handle v => exact hh v
  | primitive p => exact p.ignoresFollow hc
  | own p => exact hc.elim
  | unbuilt cause => exact .fresh fun _ _ h => absurd h (by simp)
  | map f p ih => exact .map f (ih hc hh)
  | bind p k ihp ihk => exact .bind (ihp hc.1 hh) fun a => ihk a (hc.2 a) hh
  | bindMap p k f ihp ihk => exact .bindMap f (ihp hc.1 hh) fun a => ihk a (hc.2 a) hh
  | seqRight p q ihp ihq => exact .seqRight (ihp hc.1 hh) (ihq hc.2 hh)
  | seqLeft p q ihp ihq => exact .seqLeft (ihp hc.1 hh) (ihq hc.2 hh)
  | choice ps ih =>
    refine .choice fun p hp => ?_
    obtain ⟨i, rfl⟩ := List.mem_ofFn.mp hp
    exact ih i (hc i) hh
  | orElse p q ihp ihq => exact .orElse (ihp hc.1 hh) (ihq hc.2 hh)
  | withDefault p default ih => exact .withDefault (ih hc hh) default
  | optional p ih => exact .optional (ih hc hh)
  | lookahead p ih => exact .lookahead (ih hc hh)
  | notAhead p ih => exact .notAhead (ih hc hh)
  | filter p accept ih => exact .filter (ih hc hh) accept
  | mapMessage p f ih => exact .mapMessage (ih hc hh) f
  | mapMessageAt p f g ih => exact .mapMessageAt (ih hc hh) f g
  | withMessage p message ih => exact .mapMessage (ih hc hh) _
  | foldSep item delimiter f ihi ihd => exact .foldSep (ihi hc.1 hh) (ihd hc.2 hh) f
  | foldSepRight item delimiter f ihi ihd => exact .foldSepRight (ihi hc.1 hh) (ihd hc.2 hh) f
  | foldMany1 item f ih => exact .foldMany1 (ih hc hh) f
  | foldMany item f default ih => exact .withDefault (.foldMany1 (ih hc hh) f) default
  | inEnv p scanners change ihp ihs =>
    obtain ⟨hp, steps, hsteps⟩ := hc
    show Parser.IgnoresFollow
      ((p.parser handles).inEnvM (change fun j => ((scanners j).parser handles).scan))
    rw [funext (hsteps _), ← inEnv_eq_inEnvM]
    exact .inEnv (ihp hp hh) _ steps
  | onText p subject ih => exact .onText (ih hc hh) subject
  | fresh build ih =>
    exact .fresh fun scope p hp => Except.ok.inj hp ▸ ih scope (hc scope) hh
  | recursive name order rules i ih =>
    refine .entry (fun inner hinner i p hp => Except.ok.inj hp ▸ ih i (hc i) fun v => ?_) i
    -- a handle of a rule is one of its surroundings, or one of the grammar
    cases v with
    | inl v => exact hh v
    | inr j => exact hinner j

/-- **Only keywords see what may follow.** A grammar has no keywords of its own and
nothing that is written by hand; what is skipped may have both. In two environments
that skip alike in the same text, but differ in what may follow a keyword, it ends
alike from every position: with a success at the same position and with the same value,
with a failure with the same message about the same position, or with the same fault;
and with the same budget, so that it returns in both or in none. -/
theorem keyless_run {α : Type} (c : Closed α) (hc : c.Keyless) (subject : Text)
    (skip follow follow' : Option Scan) (n budget : Nat) (k : Knots) :
    let env : Env := ⟨subject, skip, follow⟩
    let env' : Env := ⟨subject, skip, follow'⟩
    (∀ stop a log k', (∃ e, c.toParser.run env n budget k = .done (.ok e stop a) log k')
        ↔ ∃ e, c.toParser.run env' n budget k = .done (.ok e stop a) log k')
    ∧ (∀ message about log k', c.toParser.run env n budget k = .done (.fail message about) log k'
        ↔ c.toParser.run env' n budget k = .done (.fail message about) log k')
    ∧ (∀ cause log k', c.toParser.run env n budget k = .fault cause log k'
        ↔ c.toParser.run env' n budget k = .fault cause log k')
    ∧ (c.toParser.run env n budget k = .exhausted
        ↔ c.toParser.run env' n budget k = .exhausted) := by
  intro env env'
  have hrun : c.toParser.run env n
      = c.toParser.run env' n >>= fun reply => pure (reply.rebase env) :=
    (c.ignoresFollow hc fun v => v.elim).run_eq env n follow'
  rw [hrun, Eval.bind_apply]
  cases c.toParser.run env' n budget k with
  | done reply log k₁ => cases reply <;> simp [Outcome.after, Reply.rebase]
  | fault cause log k₁ => simp
  | exhausted => simp

/-- Letters, and dashes that are skipped before them. A dash is a keyword that a letter
may follow, which is said where it is skipped. -/
def dashedLetters : Closed String :=
  .inEnv (.recursive ⟨0, []⟩ [()] (fun _ =>
      .orElse (.seqRight (.primitive (.string "a" "no letter")) (.handle (Sum.inr ())))
        (.primitive (.succeed "end"))) ())
    (fun _ : Unit => .inEnv (.primitive (.key "-" "no dash"))
      (fun _ : Unit => .primitive (.string "a" "no letter"))
      fun scans env => pure (env.make scans [.adjust (.withFollow (some ()))]))
    fun scans env => pure (env.make scans [.adjust (.withSkip (some ()))])

/-- Where nothing may follow a keyword but the end of the subject, a dash before a letter
is no keyword; but it is skipped as it is where there is no rule about keywords. -/
theorem keyless_run_dashed :
    let subject : Text := ['a', '-', 'a']
    dashedLetters.Keyless
    ∧ (∃ log k', (Parser.key "-").run ⟨subject, none, some fun _ _ => pure none⟩ 1 4 .initial
        = .done (.fail "Does not match keyword -" (some 2)) log k')
    ∧ ∃ e log k', dashedLetters.toParser.run ⟨subject, none, some fun _ _ => pure none⟩ 0 4 .initial
        = .done (.ok e 3 "end") log k' := by
  intro subject
  have hc : dashedLetters.Keyless :=
    ⟨fun _ => ⟨⟨trivial, trivial⟩, trivial⟩, _, fun _ _ => rfl⟩
  have hrun : ∃ e log k', dashedLetters.toParser.run ⟨subject, none, none⟩ 0 4 .initial
      = .done (.ok e 3 "end") log k' := ⟨_, _, _, rfl⟩
  obtain ⟨e, log, k', hdone⟩ := hrun
  obtain ⟨hok, -⟩ := dashedLetters.keyless_run hc subject none none
    (some fun _ _ => pure none) 0 4 .initial
  obtain ⟨e', hdone'⟩ := (hok 3 "end" log k').mp ⟨e, hdone⟩
  exact ⟨hc, ⟨_, _, rfl⟩, e', log, k', hdone'⟩

end Construction

end Descent
