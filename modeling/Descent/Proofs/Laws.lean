import Descent.Proofs.Following
import Descent.Proofs.Safety

/-!
# Laws of evaluations

Many statements about the library have one proof. They say how an evaluation ends,
or what it leaves behind, in a way that passes through every construct of `Eval`; and
then they hold of every parser that the library builds, by induction on how it is
built. A `Law` is such a statement with what has to be known of it: how it passes
through the constructs, which faults it allows for, and which recursive grammars it
can deal with. `Construction.lawful` is the induction, made once.

**What a law may speak of.** It is told which scopes are alive where an evaluation
begins, since a recursive grammar is of use only while its scope is; and it says of a
value what may depend on the scopes that are alive by then. Scopes that are alive stay
so while a parser runs, apart from those that it opened itself.

**Recursive grammars** are where laws differ most, so a law has a rule for a call as a
whole (`Law.call`), and the induction on the calls that are left is made here
(`Parser.Lawful.entry`).
-/

namespace Descent

/-- **A law of evaluations**, with what makes it a law of all parsers. -/
structure Law where
  /-- The evaluation obeys the law where these scopes are alive, and its value is as
  described. -/
  holds : {α : Type} → List Nat → Eval α → (List Nat → α → Prop) → Prop
  /-- The faults that are allowed for. -/
  stops : Fault → Prop
  /-- The recursive grammars that may be used, with the number of their rules. -/
  knows : KnotName → Nat → Prop
  pure : ∀ {α : Type} {alive : List Nat} {a : α} {P : List Nat → α → Prop},
    (∀ live, alive ⊆ live → P live a) → holds alive (pure a) P
  /-- What comes second begins where at least as much is alive. -/
  bind : ∀ {α β : Type} {alive : List Nat} {x : Eval α} {f : α → Eval β}
    {P : List Nat → α → Prop} {Q : List Nat → β → Prop}, holds alive x P →
    (∀ live, alive ⊆ live → ∀ a, P live a → holds live (f a) Q) → holds alive (x >>= f) Q
  emit : ∀ {alive : List Nat} {e : Event}, e.IsRemark → holds alive (Eval.emit e) fun _ _ => True
  stop : ∀ {α : Type} {alive : List Nat} {cause : Fault} {P : List Nat → α → Prop},
    stops cause → holds alive (Eval.stop cause) P
  budget : ∀ {alive : List Nat}, holds alive Eval.budget fun _ _ => True
  /-- A part in a scope of its own. What is said of its value outlives the scope. -/
  inScope : ∀ {α : Type} {alive : List Nat} {x : Nat → Eval α} {P : α → Prop},
    (∀ scope, holds (scope :: alive) (x scope) fun _ => P) →
    holds alive (Eval.openScope >>= fun scope => x scope >>= fun a =>
      Eval.closeScope scope >>= fun _ => Pure.pure a) fun _ => P
  /-- No call is left. -/
  giveUp : ∀ {α : Type} {alive : List Nat} {name : KnotName} {size : Nat}
    {P : List Nat → α → Prop}, knows name size → holds alive Eval.giveUp P
  ensureLive : ∀ {ι : Type} {τ : ι → Type} {grammar : Knot τ} {alive : List Nat},
    knows grammar.name grammar.order.length → grammar.name.scope ∈ alive →
    holds alive grammar.ensureLive fun _ _ => True
  /-- A call is tying the grammar, and then what the rule builds from its handles. -/
  call : ∀ {ι : Type} {τ : ι → Type} {grammar : Knot τ} {alive : List Nat} {budget : Nat}
    {i : ι} {p : Parser (τ i)} {env : Env} {n : Nat} {P : List Nat → Reply (τ i) → Prop},
    knows grammar.name grammar.order.length → grammar.name.scope ∈ alive →
    (∀ j, ∃ q, grammar.rule j (grammar.handlesAt budget) = .ok q) →
    grammar.rule i (grammar.handlesAt budget) = .ok p →
    (∀ live, alive ⊆ live → holds live (p.run env n) P) →
    holds alive (grammar.call (budget + 1) i env n) P

variable {L : Law} {α β γ δ : Type} {alive live : List Nat}

/-! ## Scans, environments and replies -/

/-- The scan obeys the law on every text, from every position. -/
def Scan.Lawful (L : Law) (alive : List Nat) (scan : Scan) : Prop :=
  ∀ ⦃live⦄, alive ⊆ live → ∀ subject n, L.holds live (scan subject n) fun _ _ => True

/-- What is skipped and what may follow a keyword obeys the law. -/
def Env.Lawful (L : Law) (alive : List Nat) (env : Env) : Prop :=
  ∀ scan, env.skip = some scan ∨ env.follow = some scan → scan.Lawful L alive

theorem Scan.Lawful.mono {scan : Scan} (h : scan.Lawful L alive) (hlive : alive ⊆ live) :
    scan.Lawful L live :=
  fun _ hlive' => h (List.Subset.trans hlive hlive')

theorem Env.Lawful.mono {env : Env} (h : env.Lawful L alive) (hlive : alive ⊆ live) :
    env.Lawful L live :=
  fun scan hscan => (h scan hscan).mono hlive

/-- There are no scans in a bare environment. -/
theorem Env.Lawful.new (alive : List Nat) (subject : Text) : (Env.new subject).Lawful L alive := by
  rintro scan (h | h) <;> exact absurd h (by simp [Env.new])

/-- A step puts in a lawful scan, takes one out or leaves them. -/
theorem Env.Lawful.apply {J : Type} {scans : J → Scan} (hscans : ∀ j, (scans j).Lawful L alive)
    (step : Env.Step J) {env : Env} (henv : env.Lawful L alive) :
    (step.apply scans env).Lawful L alive := by
  have hgiven : ∀ {given : Option J} {s : Scan}, given.map scans = some s →
      s.Lawful L alive := by
    intro given s hs
    obtain ⟨j, -, rfl⟩ := Option.map_eq_some_iff.mp hs
    exact hscans j
  cases step with
  | withSubject subject => exact henv
  | adjust step =>
    cases step with
    | bare => exact .new alive env.subject
    | withSkip skip =>
      rintro s (hs | hs)
      · exact hgiven hs
      · exact henv s (.inr hs)
    | withFollow follow =>
      rintro s (hs | hs)
      · exact henv s (.inl hs)
      · exact hgiven hs
    | withoutSkip =>
      rintro s (hs | hs)
      · exact absurd hs.symm (Option.some_ne_none s)
      · exact henv s (.inr hs)

/-- **Steps that put lawful scans into a lawful environment** make a lawful one. -/
theorem Env.Lawful.make {J : Type} {scans : J → Scan} (hscans : ∀ j, (scans j).Lawful L alive)
    (steps : List (Env.Step J)) {env : Env} (henv : env.Lawful L alive) :
    (env.make scans steps).Lawful L alive := by
  induction steps generalizing env with
  | nil => exact henv
  | cons step steps ih => exact ih (henv.apply hscans step)

namespace Law

/-- An event in front changes nothing. -/
theorem emit_bind {y : Eval β} {Q : List Nat → β → Prop} {e : Event} (he : e.IsRemark)
    (hy : ∀ live, alive ⊆ live → L.holds live y Q) :
    L.holds alive (Eval.emit e >>= fun _ => y) Q :=
  L.bind (L.emit he) fun live hlive _ _ => hy live hlive

/-- **What is done with a reply** that goes on in a known environment. -/
theorem bindReply {env : Env} {x : Eval (Reply α)} {f : Reply α → Eval β}
    {Q : List Nat → β → Prop} (hx : L.holds alive x fun _ reply => reply.GoesOnIn env)
    (hok : ∀ live, alive ⊆ live → ∀ stop a, L.holds live (f (.ok env stop a)) Q)
    (hfail : ∀ live, alive ⊆ live → ∀ message about, L.holds live (f (.fail message about)) Q) :
    L.holds alive (x >>= f) Q := by
  refine L.bind hx fun live hlive reply hreply => ?_
  cases reply with
  | ok env' stop a => exact (hreply : env' = env) ▸ hok live hlive stop a
  | fail message about => exact hfail live hlive message about

theorem skipFrom {env : Env} (henv : env.Lawful L alive) (n : Nat) :
    L.holds alive (env.skipFrom n) fun _ _ => True := by
  unfold Env.skipFrom
  cases hskip : env.skip with
  | none => exact L.pure fun _ _ => trivial
  | some scan =>
    refine L.bind (henv scan (.inl hskip) (List.Subset.refl alive) env.subject n)
      fun _ _ stop _ => ?_
    cases stop <;> exact L.pure fun _ _ => trivial

end Law

namespace Parser

/-- **The parser obeys the law** while the scopes are alive, whatever else is, in
environments whose scans obey it; and it hands on the environment of its call. -/
def Lawful (L : Law) (alive : List Nat) (p : Parser α) : Prop :=
  ∀ ⦃live⦄, alive ⊆ live → ∀ ⦃env⦄, env.Lawful L live → ∀ n,
    L.holds live (p.run env n) fun _ reply => reply.GoesOnIn env

namespace Lawful

theorem mono {p : Parser α} (h : p.Lawful L alive) (hlive : alive ⊆ live) : p.Lawful L live :=
  fun _ hlive' => h (List.Subset.trans hlive hlive')

/-- What is left of a lawful parser is a lawful scan. -/
theorem scan {p : Parser α} (hp : p.Lawful L alive) : p.scan.Lawful L alive :=
  fun live hlive subject n => L.bindReply (hp hlive (.new live subject) n)
    (fun _ _ _ _ => L.pure fun _ _ => trivial) fun _ _ _ _ => L.pure fun _ _ => trivial

/-! ## Parsers that are not made of others -/

theorem succeed (a : α) : (Parser.succeed a).Lawful L alive :=
  fun _ _ _ _ _ => L.pure fun _ _ => rfl

theorem fail (message : String) : (Parser.fail message : Parser α).Lawful L alive :=
  fun _ _ _ _ _ => L.pure fun _ _ => trivial

theorem position : Parser.position.Lawful L alive := fun _ _ _ _ _ => L.pure fun _ _ => rfl

theorem moveTo (target : Nat) : (Parser.moveTo target).Lawful L alive := by
  intro live _ env _ n
  unfold Parser.moveTo
  simp only []
  split
  · exact L.pure fun _ _ => rfl
  · exact L.pure fun _ _ => trivial

theorem token (read : Reader) (message : String) : (Parser.token read message).Lawful L alive := by
  intro live _ env henv n
  refine L.bind (L.skipFrom henv n) fun _ _ start _ => ?_
  cases (env.from? start).bind read with
  | none => exact L.pure fun _ _ => trivial
  | some m => exact L.pure fun _ _ => rfl

theorem endWith (message : String) : (Parser.endWith message).Lawful L alive := by
  intro live _ env henv n
  refine L.bind (L.skipFrom henv n) fun _ _ start _ => ?_
  split
  · exact L.pure fun _ _ => rfl
  · exact L.pure fun _ _ => trivial

theorem mayEndAt {env : Env} (henv : env.Lawful L alive) (n : Nat) :
    L.holds alive (Parser.mayEndAt env n) fun _ _ => True := by
  unfold Parser.mayEndAt
  cases hfollow : env.follow with
  | none => exact L.pure fun _ _ => trivial
  | some follow =>
    simp only []
    split
    · exact L.pure fun _ _ => trivial
    · refine L.bind (L.skipFrom henv n) fun live hlive stop _ => ?_
      split
      · exact L.pure fun _ _ => trivial
      · exact L.bind (henv follow (.inr hfollow) hlive env.subject n)
          fun _ _ _ _ => L.pure fun _ _ => trivial

theorem bounded {p : Parser String} (hp : p.Lawful L alive) (message : String) :
    (p.bounded message).Lawful L alive := by
  intro live hlive env henv n
  refine L.bindReply (hp hlive henv n) (fun live' hlive' stop text => ?_)
    fun _ _ _ _ => L.pure fun _ _ => trivial
  refine L.bind (mayEndAt (henv.mono hlive') stop) fun _ _ may _ => ?_
  split
  · exact L.pure fun _ _ => rfl
  · exact L.emit_bind trivial fun _ _ => L.pure fun _ _ => trivial

/-! ## Sequences -/

theorem bind {p : Parser α} {f : α → Parser β} (hp : p.Lawful L alive)
    (hf : ∀ a, (f a).Lawful L alive) : (p.bind f).Lawful L alive :=
  fun _ hlive _ henv n => L.bindReply (hp hlive henv n)
    (fun _ hlive' stop a => (hf a).mono hlive hlive' (henv.mono hlive') stop)
    fun _ _ _ _ => L.pure fun _ _ => trivial

theorem map {p : Parser α} (f : α → β) (hp : p.Lawful L alive) : (p.map f).Lawful L alive := by
  rw [map_eq_bind]
  exact hp.bind fun a => succeed (f a)

theorem bindMap {p : Parser α} {k : α → Parser β} (f : α → β → γ) (hp : p.Lawful L alive)
    (hk : ∀ a, (k a).Lawful L alive) : (p.bindMap k f).Lawful L alive := by
  rw [bindMap_eq_bind]
  exact hp.bind fun a => (hk a).map (f a)

theorem seqRight {p : Parser α} {q : Parser β} (hp : p.Lawful L alive) (hq : q.Lawful L alive) :
    (p.seqRight q).Lawful L alive :=
  hp.bind fun _ => hq

theorem seqLeft {p : Parser α} {q : Parser β} (hp : p.Lawful L alive) (hq : q.Lawful L alive) :
    (p.seqLeft q).Lawful L alive := by
  rw [seqLeft_eq_bind]
  exact hp.bind fun a => hq.map fun _ => a

/-! ## Parsers that go back -/

theorem firstOf {ps : List (Parser α)} (hps : ∀ p ∈ ps, p.Lawful L alive) {live : List Nat}
    (hlive : alive ⊆ live) {env : Env} (henv : env.Lawful L live) (n index : Nat)
    {failure : Reply α} (hfailure : failure.GoesOnIn env) :
    L.holds live (Parser.firstOf index failure ps env n) fun _ reply => reply.GoesOnIn env := by
  induction ps generalizing index failure live with
  | nil => exact L.pure fun _ _ => hfailure
  | cons p ps ih =>
    refine L.bindReply (hps p List.mem_cons_self hlive henv n)
      (fun _ _ _ _ => L.pure fun _ _ => rfl) fun _ hlive' _ _ => ?_
    refine L.emit_bind trivial fun _ hlive'' => ?_
    have hall := List.Subset.trans hlive' hlive''
    exact ih (fun q hq => hps q (List.mem_cons_of_mem p hq)) (List.Subset.trans hlive hall)
      (henv.mono hall) (index + 1) trivial

theorem choice {ps : List (Parser α)} (hps : ∀ p ∈ ps, p.Lawful L alive) :
    (Parser.choice ps).Lawful L alive :=
  fun _ hlive _ henv n => firstOf hps hlive henv n 0 trivial

theorem orElse {p q : Parser α} (hp : p.Lawful L alive) (hq : q.Lawful L alive) :
    (p.orElse q).Lawful L alive := by
  intro live hlive env henv n
  refine L.bindReply (hp hlive henv n) (fun _ _ _ _ => L.pure fun _ _ => rfl)
    fun _ hlive' _ _ => L.emit_bind trivial fun _ hlive'' => ?_
  have hall := List.Subset.trans hlive' hlive''
  exact hq.mono hlive hall (henv.mono hall) n

theorem withDefault {p : Parser α} (hp : p.Lawful L alive) (default : α) :
    (p.withDefault default).Lawful L alive :=
  fun _ hlive _ henv n => L.bindReply (hp hlive henv n) (fun _ _ _ _ => L.pure fun _ _ => rfl)
    fun _ _ _ _ => L.pure fun _ _ => rfl

theorem optional {p : Parser α} (hp : p.Lawful L alive) : p.optional.Lawful L alive :=
  (hp.map some).withDefault none

theorem lookahead {p : Parser α} (hp : p.Lawful L alive) : p.lookahead.Lawful L alive :=
  fun _ hlive _ henv n => L.bindReply (hp hlive henv n) (fun _ _ _ _ => L.pure fun _ _ => rfl)
    fun _ _ _ _ => L.pure fun _ _ => trivial

theorem notAhead {p : Parser α} (hp : p.Lawful L alive) : p.notAhead.Lawful L alive :=
  fun _ hlive _ henv n => L.bindReply (hp hlive henv n) (fun _ _ _ _ => L.pure fun _ _ => trivial)
    fun _ _ _ _ => L.pure fun _ _ => rfl

theorem filter {p : Parser α} (hp : p.Lawful L alive) (accept : α → Bool) :
    (p.filter accept).Lawful L alive := by
  intro live hlive env henv n
  refine L.bindReply (hp hlive henv n) (fun _ _ stop a => ?_)
    fun _ _ _ _ => L.pure fun _ _ => trivial
  simp only []
  split
  · exact L.pure fun _ _ => rfl
  · exact L.pure fun _ _ => trivial

/-- **A failure that is changed** says something, or the law allows for its silence. -/
theorem mapFailure {p : Parser α} {f : String → Option Nat → String × Option Nat}
    (hp : p.Lawful L alive)
    (hf : (∀ message about, (f message about).1 ≠ "") ∨ L.stops .emptyMessage) :
    (p.mapFailure f).Lawful L alive := by
  intro live hlive env henv n
  refine L.bindReply (hp hlive henv n) (fun _ _ _ _ => L.pure fun _ _ => rfl)
    fun live' _ message about => ?_
  show L.holds live' (if (f message about).1.isEmpty then Eval.stop .emptyMessage
    else Pure.pure (Reply.fail (f message about).1 (f message about).2)) _
  split
  · next hempty =>
    exact L.stop (hf.resolve_left fun h => h message about (String.isEmpty_iff.mp hempty))
  · exact L.pure fun _ _ => trivial

theorem mapMessage {p : Parser α} {f : String → String} (hp : p.Lawful L alive)
    (hf : (∀ message, f message ≠ "") ∨ L.stops .emptyMessage) :
    (p.mapMessage f).Lawful L alive :=
  hp.mapFailure (hf.imp_left fun h message _ => h message)

theorem mapMessageAt {p : Parser α} {f : String → String} (hp : p.Lawful L alive)
    (hf : (∀ message, f message ≠ "") ∨ L.stops .emptyMessage) (g : Option Nat → Nat) :
    (p.mapMessageAt f g).Lawful L alive :=
  hp.mapFailure (hf.imp_left fun h message _ => h message)

/-! ## Repetition -/

/-- A round obeys the law, and goes on in the environment it was called in. -/
theorem round {item : Parser α} {delimiter : Parser δ} (hitem : item.Lawful L alive)
    (hdelimiter : delimiter.Lawful L alive) {live : List Nat} (hlive : alive ⊆ live) {env : Env}
    (henv : env.Lawful L live) (n : Nat) :
    L.holds live (Parser.round item delimiter env n) fun _ r =>
      ∀ r', r = some r' → r'.env = env := by
  have hend : ∀ live' (reason : Event), reason.IsRemark →
      L.holds live' (Eval.emit reason >>= fun _ => (Pure.pure none : Eval (Option (Round δ α))))
        fun _ r => ∀ r', r = some r' → r'.env = env :=
    fun _ _ hreason => L.emit_bind hreason fun _ _ => L.pure fun _ _ => by simp
  refine L.bindReply (hdelimiter hlive henv n) (fun live₁ hlive₁ middle d => ?_)
    fun _ _ _ _ => hend _ _ trivial
  refine L.bindReply (hitem.mono hlive hlive₁ (henv.mono hlive₁) middle) (fun _ _ stop a => ?_)
    fun _ _ _ _ => hend _ _ trivial
  simp only []
  split
  · exact L.pure fun _ _ r' hr' => by rw [← Option.some.inj hr']
  · exact hend _ _ trivial

/-- A chain of rounds obeys the law. The induction is on the rounds that are allowed. -/
theorem rounds {item : Parser α} {delimiter : Parser δ} (hitem : item.Lawful L alive)
    (hdelimiter : delimiter.Lawful L alive) (left : Nat) {live : List Nat} (hlive : alive ⊆ live)
    {env : Env} (henv : env.Lawful L live) (n : Nat) :
    L.holds live (Parser.rounds item delimiter left env n) fun _ chain =>
      ∀ a, (Round.reply env n chain a).GoesOnIn env := by
  induction left generalizing n live with
  | zero =>
    unfold Parser.rounds
    refine L.bind (round hitem hdelimiter hlive henv n) fun _ _ r _ => ?_
    cases r <;> exact L.pure fun _ _ _ => rfl
  | succ left ih =>
    unfold Parser.rounds
    refine L.bind (round hitem hdelimiter hlive henv n) fun live' hlive' r hr => ?_
    cases r with
    | none => exact L.pure fun _ _ _ => rfl
    | some r =>
      obtain rfl : r.env = env := hr r rfl
      exact L.bind (ih (List.Subset.trans hlive hlive') (henv.mono hlive') r.stop)
        fun _ _ _ hchain => L.pure fun _ _ => hchain

theorem repetition {item : Parser α} {delimiter : Parser δ} (hitem : item.Lawful L alive)
    (hdelimiter : delimiter.Lawful L alive) (value : α → List (Round δ α) → α) :
    (Parser.repetition item delimiter value).Lawful L alive := by
  intro live hlive env henv n
  refine L.bindReply (hitem hlive henv n) (fun live' hlive' stop first => ?_)
    fun _ _ _ _ => L.pure fun _ _ => trivial
  exact L.bind (rounds hitem hdelimiter _ (List.Subset.trans hlive hlive') (henv.mono hlive') stop)
    fun _ _ _ hchain => L.pure fun _ _ => hchain _

theorem foldSep {item : Parser α} {delimiter : Parser δ} (hitem : item.Lawful L alive)
    (hdelimiter : delimiter.Lawful L alive) (f : α → δ → α → α) :
    (item.foldSep delimiter f).Lawful L alive := by
  rw [foldSep_eq_repetition]
  exact hitem.repetition hdelimiter _

theorem foldSepRight {item : Parser α} {delimiter : Parser δ} (hitem : item.Lawful L alive)
    (hdelimiter : delimiter.Lawful L alive) (f : α → δ → α → α) :
    (item.foldSepRight delimiter f).Lawful L alive := by
  rw [foldSepRight_eq_repetition]
  exact hitem.repetition hdelimiter _

/-- Adjacent items have an empty text between them. -/
theorem foldMany1 {item : Parser α} (hitem : item.Lawful L alive) (f : α → α → α) :
    (item.foldMany1 f).Lawful L alive :=
  hitem.foldSep (token _ _) _

/-! ## Other environments and other texts -/

/-- **A change of environment** that obeys the law, and makes a lawful environment. -/
theorem inEnvM {p : Parser α} {change : Env → Eval Env} (hp : p.Lawful L alive)
    (hchange : ∀ live, alive ⊆ live → ∀ env, env.Lawful L live →
      L.holds live (change env) fun live' env' => env'.Lawful L live') :
    (p.inEnvM change).Lawful L alive := by
  intro live hlive env henv n
  refine L.bind (hchange live hlive env henv) fun live' hlive' env' henv' => ?_
  exact L.bindReply (hp.mono hlive hlive' henv' n) (fun _ _ _ _ => L.pure fun _ _ => rfl)
    fun _ _ _ _ => L.pure fun _ _ => trivial

theorem inEnv {p : Parser α} {change : Env → Env} (hp : p.Lawful L alive)
    (hchange : ∀ live env, env.Lawful L live → (change env).Lawful L live) :
    (p.inEnv change).Lawful L alive := by
  rw [Construction.inEnv_eq_inEnvM]
  exact hp.inEnvM fun _ _ env henv => L.pure fun live hlive => hchange live env (henv.mono hlive)

theorem onText {p : Parser α} (hp : p.Lawful L alive) (subject : Text) :
    (p.onText subject).Lawful L alive := by
  intro live hlive env henv n
  have hother : (env.withSubject subject).Lawful L live := henv
  exact L.bindReply (hp hlive hother 0) (fun _ _ _ _ => L.pure fun _ _ => rfl)
    fun _ _ _ _ => L.pure fun _ _ => trivial

/-! ## Grammars that are built during the run, and recursive grammars -/

/-- **A part that is built on the spot** runs while its scope is alive. If it cannot be
built, the law allows for it. -/
theorem fresh {build : Nat → Except Fault (Parser α)}
    (hbuild : ∀ scope p, build scope = .ok p → p.Lawful L (scope :: alive))
    (hstop : ∀ scope cause, build scope = .error cause → L.stops cause) :
    (Parser.fresh build).Lawful L alive := by
  intro live hlive env henv n
  have hpart : ∀ scope, L.holds (scope :: live)
      (Eval.ofExcept (build scope) >>= fun p => p.run env n)
      fun _ reply => reply.GoesOnIn env := by
    intro scope
    cases hp : build scope with
    | error cause =>
      exact L.bind (P := fun _ _ => False) (L.stop (hstop scope cause hp)) fun _ _ _ h => h.elim
    | ok p =>
      rw [Eval.ofExcept, Eval.pure_bind]
      exact hbuild scope p hp (List.cons_subset_cons scope hlive)
        (henv.mono (List.subset_cons_self scope live)) n
  have hfresh : (Parser.fresh build).run env n = Eval.openScope >>= fun scope =>
      (Eval.ofExcept (build scope) >>= fun p => p.run env n) >>= fun reply =>
        Eval.closeScope scope >>= fun _ => Pure.pure reply :=
    congrArg (Eval.openScope >>= ·) (funext fun scope => (Eval.bind_assoc _ _ _).symm)
  rw [hfresh]
  exact L.inScope hpart

/-- **A recursive grammar that the law knows obeys it if its rules do**, given handles
that do. The induction is on the calls that are left. -/
theorem entry {ι : Type} {τ : ι → Type} {grammar : Knot τ}
    (hknows : L.knows grammar.name grammar.order.length) (hname : grammar.name.scope ∈ alive)
    (hbuilt : ∀ i handles, ∃ p, grammar.rule i handles = .ok p)
    (hrules : ∀ handles : Parsers τ, (∀ j, (handles j).Lawful L alive) →
      ∀ i p, grammar.rule i handles = .ok p → p.Lawful L alive) (i : ι) :
    (grammar.entry i).Lawful L alive := by
  have hcall : ∀ budget i, (⟨grammar.call budget i⟩ : Parser (τ i)).Lawful L alive := by
    intro budget
    induction budget with
    | zero => exact fun _ _ _ _ _ _ => L.giveUp hknows
    | succ budget ih =>
      have hhandles : ∀ j, (grammar.handlesAt budget j).Lawful L alive := by
        intro j live hlive env henv n
        exact L.bind (L.ensureLive hknows (hlive hname)) fun _ hlive' _ _ =>
          (ih j).mono hlive hlive' (henv.mono hlive') n
      intro i live hlive env henv n
      obtain ⟨p, hp⟩ := hbuilt i (grammar.handlesAt budget)
      exact L.call hknows (hlive hname) (fun j => hbuilt j _) hp fun live' hlive' =>
        (hrules _ hhandles i p hp).mono hlive hlive' (henv.mono hlive') n
  exact fun live hlive env henv n => L.bind L.budget fun _ hlive' budget _ =>
    (hcall budget i).mono hlive hlive' (henv.mono hlive') n

/-- A run obeys the law: it remarks that it begins and that it ends. -/
theorem runIn {p : Parser α} (hp : p.Lawful L alive) {env : Env} (henv : env.Lawful L alive)
    (start : Nat) : L.holds alive (p.runIn env start) fun _ _ => True := by
  refine L.emit_bind trivial fun live hlive => ?_
  split
  · exact L.pure fun _ _ => trivial
  · split
    · exact L.pure fun _ _ => trivial
    · exact L.bind (hp hlive (henv.mono hlive) start) fun _ _ reply _ =>
        L.emit_bind trivial fun _ _ => L.pure fun _ _ => trivial

end Lawful

end Parser

/-! ## Literals and other primitives -/

namespace Literal

open Descent.Parser

theorem Lawful.digits (pattern : String) (accept : Char → Bool) (base : Nat) :
    (digits pattern accept base).Lawful L alive := by
  refine .bind (.token (.run1 accept) _) fun text => ?_
  show Parser.Lawful L alive (if _ then _ else _)
  split
  · exact .succeed _
  · exact .fail _

theorem Lawful.magnitude (format : NumberFormat) : (magnitude format).Lawful L alive := by
  have marked : ∀ {marker : String} {p : Parser Nat}, p.Lawful L alive →
      ((Parser.string marker).seqRight p).Lawful L alive := fun hp => .seqRight (.token _ _) hp
  exact magnitude_induction .orElse (marked (Lawful.digits _ _ _)) (marked (Lawful.digits _ _ _))
    (marked (Lawful.digits _ _ _)) (Lawful.digits _ _ _) format

theorem Lawful.number (format : NumberFormat) : (number format).Lawful L alive :=
  .bind .position fun _ => .bind (.withDefault (.token _ _) _) fun _ =>
    .map _ (.bind (.mapMessageAt (Lawful.magnitude format) (.inl fun _ => by decide) _)
      fun _ => .succeed _)

theorem Lawful.decoded (read : Reader) (pattern : String) (meaning : Text → Option Text) :
    (decoded read pattern meaning).Lawful L alive := by
  intro live hlive env henv n
  have htoken : (Parser.token read ("Does not match pattern " ++ pattern)).Lawful L alive :=
    .token _ _
  refine L.bindReply (htoken hlive henv n) (fun _ _ stop text => ?_)
    fun _ _ _ _ => L.pure fun _ _ => trivial
  simp only []
  split
  · exact L.pure fun _ _ => rfl
  · exact L.pure fun _ _ => trivial

theorem Lawful.fragment (quote : Char) (escape : Escape) (format : StringFormat) :
    (fragment quote escape format).Lawful L alive :=
  fragment_induction .orElse (fun _ => Lawful.decoded _ _ _) (Lawful.decoded _ _ _)
    (.map _ (.token _ _))

theorem Lawful.quotedWith (quote : Char) (escape : Escape) (format : StringFormat)
    {message : String} (h : message ≠ "" ∨ L.stops .emptyMessage) :
    (quotedWith quote escape format message).Lawful L alive := by
  have hquote : (Parser.string (String.singleton quote)).Lawful L alive := .token _ _
  have hfragments : ((Literal.fragment quote escape format).foldMany (fun a b => a ++ b)
      []).Lawful L alive := .withDefault (.foldMany1 (Lawful.fragment quote escape format) _) _
  refine .mapMessage (.map _ (.seqRight hquote ?_)) (h.imp_left fun h _ => h)
  refine .inEnv (.seqLeft hfragments hquote) fun live env henv => ?_
  rintro scan (hscan | hscan)
  · exact absurd hscan (by simp [Env.withoutSkip, Env.withSkip])
  · exact henv scan (.inr hscan)

end Literal

/-- **Every primitive obeys every law**, if it has a message for its failures or the law
allows for none. -/
theorem Primitive.lawful {α : Type} (p : Primitive α) (hp : p.Speaks ∨ L.stops .emptyMessage)
    (alive : List Nat) : p.parser.Lawful L alive := by
  cases p with
  | string => exact .token _ _
  | ignoreCase => exact .token _ _
  | pattern text message p valid =>
    obtain ⟨program, rfl⟩ := Parser.exists_matching valid
    exact .token _ message
  | atEnd => exact .endWith _
  | real message =>
    refine .bind (.token .real message) fun text => ?_
    split
    · exact .succeed _
    · exact .fail _
  | key => exact .bounded (.token _ _) _
  | keyIgnoreCase => exact .bounded (.token _ _) _
  | number => exact Literal.Lawful.number _
  | quoted => exact Literal.Lawful.quotedWith _ _ _ hp
  | javaIdentifier => exact .token _ _
  | succeed => exact .succeed _
  | fail => exact .fail _
  | position => exact .position
  | moveTo => exact .moveTo _

/-! ## Whatever is built -/

namespace Construction

/-- **Nothing in the construction is against the law** where the scopes are alive: its
recursive parts are known and in scope, where a part that is built on the spot may use
the scope that is opened for it; faults that it gives a reason for are allowed for; and
what is written by hand, here or in a change of environment, obeys the law by itself. -/
def Lawful (L : Law) {V : Type} {Γ : V → Type} {α : Type} : Construction Γ α → List Nat → Prop
  | handle _, _ => True
  | primitive p, _ => p.Speaks ∨ L.stops .emptyMessage
  | own p, alive => p.Lawful L alive
  | unbuilt cause, _ => L.stops cause
  | map _ p, alive => p.Lawful L alive
  | bind p k, alive => p.Lawful L alive ∧ ∀ a, (k a).Lawful L alive
  | bindMap p k _, alive => p.Lawful L alive ∧ ∀ a, (k a).Lawful L alive
  | seqRight p q, alive => p.Lawful L alive ∧ q.Lawful L alive
  | seqLeft p q, alive => p.Lawful L alive ∧ q.Lawful L alive
  | choice ps, alive => ∀ i, (ps i).Lawful L alive
  | orElse p q, alive => p.Lawful L alive ∧ q.Lawful L alive
  | withDefault p _, alive => p.Lawful L alive
  | optional p, alive => p.Lawful L alive
  | lookahead p, alive => p.Lawful L alive
  | notAhead p, alive => p.Lawful L alive
  | filter p _, alive => p.Lawful L alive
  | mapMessage p f, alive =>
    p.Lawful L alive ∧ ((∀ message, f message ≠ "") ∨ L.stops .emptyMessage)
  | mapMessageAt p f _, alive =>
    p.Lawful L alive ∧ ((∀ message, f message ≠ "") ∨ L.stops .emptyMessage)
  | withMessage p message, alive => p.Lawful L alive ∧ (message ≠ "" ∨ L.stops .emptyMessage)
  | foldSep item delimiter _, alive => item.Lawful L alive ∧ delimiter.Lawful L alive
  | foldSepRight item delimiter _, alive => item.Lawful L alive ∧ delimiter.Lawful L alive
  | foldMany1 item _, alive => item.Lawful L alive
  | foldMany item _ _, alive => item.Lawful L alive
  | inEnv p scanners change, alive =>
    p.Lawful L alive ∧ (∀ j, (scanners j).Lawful L alive)
      ∧ ∀ scans live, alive ⊆ live → (∀ j, (scans j).Lawful L live) →
        ∀ env, env.Lawful L live →
          L.holds live (change scans env) fun live' env' => env'.Lawful L live'
  | onText p _, alive => p.Lawful L alive
  | fresh build, alive => ∀ scope, (build scope).Lawful L (scope :: alive)
  | recursive name order rules _, alive =>
    L.knows name order.length ∧ name.scope ∈ alive ∧ ∀ i, (rules i).Lawful L alive

/-- A change of environment that is made in steps is lawful. -/
theorem lawful_steps {J : Type} {change : (J → Scan) → Env → Eval Env}
    {steps : List (Env.Step J)}
    (hchange : ∀ scans env, change scans env = pure (env.make scans steps)) (alive : List Nat) :
    ∀ scans live, alive ⊆ live → (∀ j, (scans j).Lawful L live) → ∀ env, env.Lawful L live →
      L.holds live (change scans env) fun live' env' => env'.Lawful L live' := by
  intro scans live _ hscans env henv
  rw [hchange]
  exact L.pure fun live' hlive' => (henv.mono hlive').make (fun j => (hscans j).mono hlive') steps

/-- **Whatever is built in a lawful way obeys the law.** -/
theorem lawful {V : Type} {Γ : V → Type} {α : Type} (c : Construction Γ α) {alive : List Nat}
    (hc : c.Lawful L alive) {handles : Parsers Γ} (hh : ∀ v, (handles v).Lawful L alive) :
    (c.parser handles).Lawful L alive := by
  induction c generalizing alive with
  | handle v => exact hh v
  | primitive p => exact p.lawful hc alive
  | own p => exact hc
  | unbuilt cause =>
    exact .fresh (fun _ _ h => absurd h (by simp)) fun _ _ h => Except.error.inj h ▸ hc
  | map f p ih => exact .map f (ih hc hh)
  | bind p k ihp ihk => exact .bind (ihp hc.1 hh) fun a => ihk a (hc.2 a) hh
  | bindMap p k f ihp ihk => exact .bindMap f (ihp hc.1 hh) fun a => ihk a (hc.2 a) hh
  | seqRight p q ihp ihq => exact .seqRight (ihp hc.1 hh) (ihq hc.2 hh)
  | seqLeft p q ihp ihq => exact .seqLeft (ihp hc.1 hh) (ihq hc.2 hh)
  | choice ps ih =>
    refine .choice fun p hp => ?_
    obtain ⟨i, rfl⟩ := List.mem_ofFn.mp hp
    exact ih i (hc i) hh
  | orElse p q ihp ihq => exact .orElse (ihp hc.1 hh) (ihq hc.2 hh)
  | withDefault p default ih => exact .withDefault (ih hc hh) default
  | optional p ih => exact .optional (ih hc hh)
  | lookahead p ih => exact .lookahead (ih hc hh)
  | notAhead p ih => exact .notAhead (ih hc hh)
  | filter p accept ih => exact .filter (ih hc hh) accept
  | mapMessage p f ih => exact .mapMessage (ih hc.1 hh) hc.2
  | mapMessageAt p f g ih => exact .mapMessageAt (ih hc.1 hh) hc.2 g
  | withMessage p message ih =>
    exact .mapMessage (ih hc.1 hh) (hc.2.imp_left fun h _ => h)
  | foldSep item delimiter f ihi ihd => exact .foldSep (ihi hc.1 hh) (ihd hc.2 hh) f
  | foldSepRight item delimiter f ihi ihd => exact .foldSepRight (ihi hc.1 hh) (ihd hc.2 hh) f
  | foldMany1 item f ih => exact .foldMany1 (ih hc hh) f
  | foldMany item f default ih => exact .withDefault (.foldMany1 (ih hc hh) f) default
  | inEnv p scanners change ihp ihs =>
    refine .inEnvM (ihp hc.1 hh) fun live hlive env henv => ?_
    exact hc.2.2 _ live hlive (fun j => (ihs j (hc.2.1 j) hh).scan.mono hlive) env henv
  | onText p subject ih => exact .onText (ih hc hh) subject
  | fresh build ih =>
    exact .fresh (fun scope p hp => Except.ok.inj hp ▸
      ih scope (hc scope) fun v => (hh v).mono (List.subset_cons_self scope alive))
      fun _ _ h => absurd h (by simp)
  | recursive name order rules i ih =>
    refine .entry hc.1 hc.2.1 (fun i inner => ⟨_, rfl⟩)
      (fun inner hinner i p hp => Except.ok.inj hp ▸ ih i (hc.2.2 i) fun v => ?_) i
    -- a handle of a rule is one of its surroundings, or one of the grammar
    cases v with
    | inl v => exact hh v
    | inr j => exact hinner j

end Construction

/-- What is skipped and what may follow a keyword are scans of lawful grammars. -/
def Env.BuiltLawfully (L : Law) (alive : List Nat) (env : Env) : Prop :=
  ∀ s, env.skip = some s ∨ env.follow = some s →
    ∃ (β : Type) (c : Construction.Closed β), c.Lawful L alive ∧ s = c.toParser.scan

/-- Such an environment obeys the law. -/
theorem Env.BuiltLawfully.lawful {env : Env} (h : env.BuiltLawfully L alive) :
    env.Lawful L alive := by
  intro s hs
  obtain ⟨β, c, hc, rfl⟩ := h s hs
  exact (c.lawful hc fun v => v.elim).scan

end Descent
