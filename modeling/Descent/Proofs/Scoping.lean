import Descent.Proofs.Construction
import Descent.Proofs.Evaluation
import Descent.Proofs.Rounds

/-!
# Environments are scoped

A success hands on an environment, and what comes next runs in it. If a parser
handed on another environment than the one it was called in, a change that was
meant for one rule would reach every rule after it. This module proves that a
grammar of the library never does so: whatever its rules do to environments on
the way, a success goes on in the environment of the call
(`Construction.goesOn_in_same_env`).

The invariant is `Parser.KeepsEnv`, and there are three reasons for it. Most
parsers hand on what they were given, by their parts. Those that go back where a
part failed go back to the environment of the call as well. And a change of
environment, another text and a negative lookahead hand on the environment of
the call *whatever* their part hands on, so nothing is asked of what stands
inside them (`Construction.Scoped`): a parser written by hand may do there what
it likes.
-/

namespace Descent

/-- A success goes on in this environment. -/
def Reply.GoesOnIn {α : Type} (env : Env) : Reply α → Prop
  | .ok env' _ _ => env' = env
  | .fail _ _ => True

/-- **What is done with a reply** that goes on in a known environment. -/
theorem Eval.Ensures.bindReply {α β : Type} {env : Env} {x : Eval (Reply α)}
    {f : Reply α → Eval β} {Q : β → Prop} (hx : x.Ensures (Reply.GoesOnIn env))
    (hok : ∀ stop a, (f (.ok env stop a)).Ensures Q)
    (hfail : ∀ message about, (f (.fail message about)).Ensures Q) : (x >>= f).Ensures Q := by
  refine .bind hx fun reply hreply => ?_
  cases reply with
  | ok env' stop a => exact (hreply : env' = env) ▸ hok stop a
  | fail message about => exact hfail message about

namespace Parser

variable {α β γ δ : Type}

/-- **The parser hands on the environment that it was called in.** -/
def KeepsEnv (p : Parser α) : Prop := ∀ env n, (p.run env n).Ensures (Reply.GoesOnIn env)

namespace KeepsEnv

/-! ## Parsers that are not made of others -/

theorem succeed (a : α) : (Parser.succeed a).KeepsEnv := fun _ _ => .pure rfl

theorem fail (message : String) : (Parser.fail message : Parser α).KeepsEnv :=
  fun _ _ => .pure trivial

theorem position : Parser.position.KeepsEnv := fun _ _ => .pure rfl

/-- The position is looked up in the subject of the call, and nothing else is touched. -/
theorem moveTo (target : Nat) : (Parser.moveTo target).KeepsEnv := by
  intro env n
  unfold Parser.moveTo
  simp only []
  split
  · exact .pure rfl
  · exact .pure trivial

/-- A token is read where the skip has ended, and a skip hands on no environment. -/
theorem token (read : Reader) (message : String) : (Parser.token read message).KeepsEnv := by
  intro env n
  refine .bind_any fun start => ?_
  cases (env.from? start).bind read with
  | none => exact .pure trivial
  | some m => exact .pure rfl

theorem endWith (message : String) : (Parser.endWith message).KeepsEnv := by
  intro env n
  refine .bind_any fun start => ?_
  split
  · exact .pure rfl
  · exact .pure trivial

/-- What may follow a keyword is scanned for, and a scan hands on no environment either. -/
theorem bounded {p : Parser String} (hp : p.KeepsEnv) (message : String) :
    (p.bounded message).KeepsEnv := by
  intro env n
  refine .bindReply (hp env n) (fun stop text => .bind_any fun may => ?_) fun _ _ => .pure trivial
  split
  · exact .pure rfl
  · exact .bind_any fun _ => .pure trivial

/-! ## Sequences -/

/-- **What comes second runs where the first one ended**, so that both have to keep the
environment. -/
theorem bind {p : Parser α} {f : α → Parser β} (hp : p.KeepsEnv) (hf : ∀ a, (f a).KeepsEnv) :
    (p.bind f).KeepsEnv :=
  fun env n => .bindReply (hp env n) (fun stop a => hf a env stop) fun _ _ => .pure trivial

theorem map {p : Parser α} (f : α → β) (hp : p.KeepsEnv) : (p.map f).KeepsEnv := by
  rw [map_eq_bind]
  exact hp.bind fun a => succeed (f a)

theorem bindMap {p : Parser α} {k : α → Parser β} (f : α → β → γ) (hp : p.KeepsEnv)
    (hk : ∀ a, (k a).KeepsEnv) : (p.bindMap k f).KeepsEnv := by
  rw [bindMap_eq_bind]
  exact hp.bind fun a => (hk a).map (f a)

theorem seqRight {p : Parser α} {q : Parser β} (hp : p.KeepsEnv) (hq : q.KeepsEnv) :
    (p.seqRight q).KeepsEnv :=
  hp.bind fun _ => hq

/-- The value is that of the first part, but the environment is that of the second. -/
theorem seqLeft {p : Parser α} {q : Parser β} (hp : p.KeepsEnv) (hq : q.KeepsEnv) :
    (p.seqLeft q).KeepsEnv := by
  rw [seqLeft_eq_bind]
  exact hp.bind fun a => hq.map fun _ => a

/-! ## Parsers that go back -/

/-- **Each alternative begins in the environment of the call.** The induction is on the
alternatives; the failure that is left has no environment to hand on. -/
theorem firstOf {ps : List (Parser α)} (hps : ∀ p ∈ ps, p.KeepsEnv) (env : Env) (n index : Nat)
    (failure : Reply α) (hfailure : failure.GoesOnIn env) :
    (Parser.firstOf index failure ps env n).Ensures (Reply.GoesOnIn env) := by
  induction ps generalizing index failure with
  | nil => exact .pure hfailure
  | cons p ps ih =>
    refine .bindReply (hps p List.mem_cons_self env n) (fun _ _ => .pure rfl) fun m about => ?_
    exact .bind_any fun _ =>
      ih (fun q hq => hps q (List.mem_cons_of_mem p hq)) (index + 1) (.fail m about) trivial

theorem choice {ps : List (Parser α)} (hps : ∀ p ∈ ps, p.KeepsEnv) :
    (Parser.choice ps).KeepsEnv :=
  fun env n => firstOf hps env n 0 (.fail "No alternative" (some n)) trivial

/-- The second alternative begins in the environment of the call, as the first one did. -/
theorem orElse {p q : Parser α} (hp : p.KeepsEnv) (hq : q.KeepsEnv) : (p.orElse q).KeepsEnv :=
  fun env n => .bindReply (hp env n) (fun _ _ => .pure rfl) fun _ _ => .bind_any fun _ => hq env n

/-- The default stands in for the value. The environment is that of the call. -/
theorem withDefault {p : Parser α} (hp : p.KeepsEnv) (default : α) :
    (p.withDefault default).KeepsEnv :=
  fun env n => .bindReply (hp env n) (fun _ _ => .pure rfl) fun _ _ => .pure rfl

theorem optional {p : Parser α} (hp : p.KeepsEnv) : p.optional.KeepsEnv :=
  (hp.map some).withDefault none

/-- A lookahead goes back to its position and not to its environment, which is the one of
its parser. -/
theorem lookahead {p : Parser α} (hp : p.KeepsEnv) : p.lookahead.KeepsEnv :=
  fun env n => .bindReply (hp env n) (fun _ _ => .pure rfl) fun _ _ => .pure trivial

/-- A value that is not accepted makes a failure, and a failure hands on nothing. -/
theorem filter {p : Parser α} (hp : p.KeepsEnv) (accept : α → Bool) :
    (p.filter accept).KeepsEnv := by
  intro env n
  refine .bindReply (hp env n) (fun stop a => ?_) fun _ _ => .pure trivial
  simp only []
  split
  · exact .pure rfl
  · exact .pure trivial

/-- Of a failure there is nothing but the message and its position to be changed. -/
theorem mapFailure {p : Parser α} (hp : p.KeepsEnv)
    (f : String → Option Nat → String × Option Nat) : (p.mapFailure f).KeepsEnv := by
  intro env n
  refine .bindReply (hp env n) (fun _ _ => .pure rfl) fun message about => ?_
  show (if (f message about).1.isEmpty then Eval.stop .emptyMessage
    else Pure.pure (Reply.fail (f message about).1 (f message about).2)).Ensures _
  split
  · exact .stop _
  · exact .pure trivial

theorem mapMessage {p : Parser α} (hp : p.KeepsEnv) (f : String → String) :
    (p.mapMessage f).KeepsEnv :=
  hp.mapFailure _

theorem mapMessageAt {p : Parser α} (hp : p.KeepsEnv) (f : String → String)
    (g : Option Nat → Nat) : (p.mapMessageAt f g).KeepsEnv :=
  hp.mapFailure _

/-! ## Repetition -/

/-- **A round hands on the environment it was called in**, since its delimiter and
its item do. -/
theorem round {item : Parser α} {delimiter : Parser δ} (hitem : item.KeepsEnv)
    (hdelimiter : delimiter.KeepsEnv) (env : Env) (n : Nat) :
    (Parser.round item delimiter env n).Ensures fun r => ∀ r', r = some r' → r'.env = env := by
  have hend : ∀ reason, (Eval.emit reason >>= fun _ =>
      (Pure.pure none : Eval (Option (Round δ α)))).Ensures fun r => ∀ r', r = some r' →
        r'.env = env :=
    fun _ => .bind_any fun _ => .pure (by simp)
  refine .bindReply (hdelimiter env n) (fun middle d => ?_) fun _ _ => hend _
  refine .bindReply (hitem env middle) (fun stop a => ?_) fun _ _ => hend _
  simp only []
  split
  · exact .pure fun r' hr' => by rw [← Option.some.inj hr']
  · exact hend _

/-- A chain of rounds goes on in the environment it began in. The induction is on
the rounds that are allowed. -/
theorem rounds {item : Parser α} {delimiter : Parser δ} (hitem : item.KeepsEnv)
    (hdelimiter : delimiter.KeepsEnv) (left : Nat) (env : Env) (n : Nat) :
    (Parser.rounds item delimiter left env n).Ensures fun chain =>
      ∀ a, (Round.reply env n chain a).GoesOnIn env := by
  induction left generalizing n with
  | zero =>
    unfold Parser.rounds
    exact .bind_any fun r => by cases r <;> exact .pure fun _ => rfl
  | succ left ih =>
    unfold Parser.rounds
    refine .bind (round hitem hdelimiter env n) fun r hr => ?_
    cases r with
    | none => exact .pure fun _ => rfl
    | some r =>
      obtain rfl : r.env = env := hr r rfl
      exact .bind (ih r.stop) fun chain hchain => .pure hchain

/-- A repetition goes on in the environment of its last round, or of its first item if
there is none. -/
theorem repetition {item : Parser α} {delimiter : Parser δ} (hitem : item.KeepsEnv)
    (hdelimiter : delimiter.KeepsEnv) (value : α → List (Round δ α) → α) :
    (Parser.repetition item delimiter value).KeepsEnv :=
  fun env n => .bindReply (hitem env n)
    (fun _ _ => .bind (rounds hitem hdelimiter _ env _) fun _ hchain => .pure (hchain _))
    fun _ _ => .pure trivial

/-- How the values are folded does not touch the environment. -/
theorem foldSep {item : Parser α} {delimiter : Parser δ} (hitem : item.KeepsEnv)
    (hdelimiter : delimiter.KeepsEnv) (f : α → δ → α → α) :
    (item.foldSep delimiter f).KeepsEnv := by
  rw [foldSep_eq_repetition]
  exact hitem.repetition hdelimiter _

theorem foldSepRight {item : Parser α} {delimiter : Parser δ} (hitem : item.KeepsEnv)
    (hdelimiter : delimiter.KeepsEnv) (f : α → δ → α → α) :
    (item.foldSepRight delimiter f).KeepsEnv := by
  rw [foldSepRight_eq_repetition]
  exact hitem.repetition hdelimiter _

/-- Adjacent items have an empty text between them. -/
theorem foldMany1 {item : Parser α} (hitem : item.KeepsEnv) (f : α → α → α) :
    (item.foldMany1 f).KeepsEnv :=
  hitem.foldSep (token _ _) _

/-! ## Parsers that hand on the environment of the call by themselves

Nothing is asked of what they run. -/

/-- A negation succeeds where its part fails, and there is no environment but that of the
call. -/
theorem notAhead (p : Parser α) : p.notAhead.KeepsEnv := by
  intro env n
  refine .bind_any fun reply => ?_
  cases reply with
  | ok env' stop a => exact .pure trivial
  | fail message about => exact .pure rfl

/-- **A change of environment ends with its part**, however the change is made. -/
theorem inEnvM (p : Parser α) (change : Env → Eval Env) : (p.inEnvM change).KeepsEnv := by
  intro env n
  refine .bind_any fun env' => .bind_any fun reply => ?_
  cases reply with
  | ok env' stop a => exact .pure rfl
  | fail message about => exact .pure trivial

theorem inEnv (p : Parser α) (change : Env → Env) : (p.inEnv change).KeepsEnv := by
  rw [Construction.inEnv_eq_inEnvM]
  exact inEnvM p _

/-- With another text its environment is left as well. -/
theorem onText (p : Parser α) (subject : Text) : (p.onText subject).KeepsEnv := by
  intro env n
  refine .bind_any fun reply => ?_
  cases reply with
  | ok env' stop a => exact .pure rfl
  | fail message about => exact .pure trivial

/-! ## Grammars that are built during the run, and recursive grammars -/

/-- What is built on the spot runs in the environment of the call. -/
theorem fresh {build : Nat → Except Fault (Parser α)}
    (hbuild : ∀ scope p, build scope = .ok p → p.KeepsEnv) : (Parser.fresh build).KeepsEnv := by
  intro env n
  refine .bind_any fun scope => .bind (.ofExcept fun p hp => hbuild scope p hp) fun p hp => ?_
  exact .bind (hp env n) fun reply hreply => .bind_any fun _ => .pure hreply

/-- **A recursive grammar hands on the environment of the call if its rules do**,
given handles that do. The induction is on the calls that are left. -/
theorem entry {ι : Type} {τ : ι → Type} {grammar : Knot τ}
    (hrules : ∀ handles : Parsers τ, (∀ j, (handles j).KeepsEnv) →
      ∀ i p, grammar.rule i handles = .ok p → p.KeepsEnv) (i : ι) :
    (grammar.entry i).KeepsEnv := by
  have hcall : ∀ budget i, (⟨grammar.call budget i⟩ : Parser (τ i)).KeepsEnv := by
    intro budget
    induction budget with
    | zero => exact fun _ _ _ => .giveUp
    | succ budget ih =>
      intro i env n
      refine .bind_any fun _ => .bind (.ofExcept (hrules _ (fun j env n => ?_) i))
        fun p hp => .withBudget (hp env n)
      exact .bind_any fun _ => ih j env n
  exact fun env n => .bind_any fun budget => hcall budget i env n

end KeepsEnv

end Parser

/-! ## Literals and other primitives -/

namespace Literal

open Descent.Parser

theorem KeepsEnv.digits (pattern : String) (accept : Char → Bool) (base : Nat) :
    (digits pattern accept base).KeepsEnv := by
  refine .bind (.token (.run1 accept) _) fun text => ?_
  show Parser.KeepsEnv (if _ then _ else _)
  split
  · exact .succeed _
  · exact .fail _

/-- The readers of numerals are tokens in a choice, each with its marker in front. -/
theorem KeepsEnv.magnitude (format : NumberFormat) : (magnitude format).KeepsEnv := by
  have marked : ∀ {marker : String} {p : Parser Nat}, p.KeepsEnv →
      ((Parser.string marker).seqRight p).KeepsEnv := fun hp => .seqRight (.token _ _) hp
  exact magnitude_induction .orElse (marked (KeepsEnv.digits _ _ _))
    (marked (KeepsEnv.digits _ _ _)) (marked (KeepsEnv.digits _ _ _)) (KeepsEnv.digits _ _ _)
    format

theorem KeepsEnv.number (format : NumberFormat) : (number format).KeepsEnv :=
  .bind .position fun _ => .bind (.withDefault (.token _ _) _) fun _ =>
    .map _ (.bind (.mapMessageAt (KeepsEnv.magnitude format) _ _) fun _ => .succeed _)

/-- The fragments are read in another environment, so nothing of them matters. -/
theorem KeepsEnv.quotedWith (quote : Char) (escape : Escape) (format : StringFormat)
    (message : String) : (quotedWith quote escape format message).KeepsEnv := by
  have hbody : (body quote escape format).KeepsEnv := .inEnv _ _
  exact .mapMessage (.map _ (.seqRight (.token _ _) hbody)) _

end Literal

/-- **Every primitive hands on the environment of the call.** -/
theorem Primitive.keepsEnv {α : Type} (p : Primitive α) : p.parser.KeepsEnv := by
  cases p with
  | string => exact .token _ _
  | ignoreCase => exact .token _ _
  | pattern text message p valid =>
    obtain ⟨program, rfl⟩ := Parser.exists_matching valid
    exact .token _ message
  | atEnd => exact .endWith _
  | real message =>
    refine .bind (.token .real message) fun text => ?_
    split
    · exact .succeed _
    · exact .fail _
  | key => exact .bounded (.token _ _) _
  | keyIgnoreCase => exact .bounded (.token _ _) _
  | number => exact Literal.KeepsEnv.number _
  | quoted => exact Literal.KeepsEnv.quotedWith _ _ _ _
  | javaIdentifier => exact .token _ _
  | succeed => exact .succeed _
  | fail => exact .fail _
  | position => exact .position
  | moveTo => exact .moveTo _

/-! ## Whatever is built -/

namespace Construction

/-- **Every parser written by hand that may hand on another environment stands
inside** a change of environment, another text or a negative lookahead. -/
def Scoped {V : Type} {Γ : V → Type} {α : Type} : Construction Γ α → Prop
  | handle _ => True
  | primitive _ => True
  | own p => p.KeepsEnv
  | unbuilt _ => True
  | map _ p => p.Scoped
  | bind p k => p.Scoped ∧ ∀ a, (k a).Scoped
  | bindMap p k _ => p.Scoped ∧ ∀ a, (k a).Scoped
  | seqRight p q => p.Scoped ∧ q.Scoped
  | seqLeft p q => p.Scoped ∧ q.Scoped
  | choice ps => ∀ i, (ps i).Scoped
  | orElse p q => p.Scoped ∧ q.Scoped
  | withDefault p _ => p.Scoped
  | optional p => p.Scoped
  | lookahead p => p.Scoped
  | notAhead _ => True
  | filter p _ => p.Scoped
  | mapMessage p _ => p.Scoped
  | mapMessageAt p _ _ => p.Scoped
  | withMessage p _ => p.Scoped
  | foldSep item delimiter _ => item.Scoped ∧ delimiter.Scoped
  | foldSepRight item delimiter _ => item.Scoped ∧ delimiter.Scoped
  | foldMany1 item _ => item.Scoped
  | foldMany item _ _ => item.Scoped
  | inEnv _ _ _ => True
  | onText _ _ => True
  | fresh build => ∀ scope, (build scope).Scoped
  | recursive _ _ rules _ => ∀ i, (rules i).Scoped

variable {V : Type} {Γ : V → Type} {α : Type}

/-- **Whatever is built hands on the environment of the call.** -/
theorem keepsEnv (c : Construction Γ α) (hc : c.Scoped) {handles : Parsers Γ}
    (hh : ∀ v, (handles v).KeepsEnv) : (c.parser handles).KeepsEnv := by
  induction c with
  | handle v => exact hh v
  | primitive p => exact p.keepsEnv
  | own p => exact hc
  | unbuilt cause => exact .fresh fun _ _ h => absurd h (by simp)
  | map f p ih => exact .map f (ih hc hh)
  | bind p k ihp ihk => exact .bind (ihp hc.1 hh) fun a => ihk a (hc.2 a) hh
  | bindMap p k f ihp ihk => exact .bindMap f (ihp hc.1 hh) fun a => ihk a (hc.2 a) hh
  | seqRight p q ihp ihq => exact .seqRight (ihp hc.1 hh) (ihq hc.2 hh)
  | seqLeft p q ihp ihq => exact .seqLeft (ihp hc.1 hh) (ihq hc.2 hh)
  | choice ps ih =>
    refine .choice fun p hp => ?_
    obtain ⟨i, rfl⟩ := List.mem_ofFn.mp hp
    exact ih i (hc i) hh
  | orElse p q ihp ihq => exact .orElse (ihp hc.1 hh) (ihq hc.2 hh)
  | withDefault p default ih => exact .withDefault (ih hc hh) default
  | optional p ih => exact .optional (ih hc hh)
  | lookahead p ih => exact .lookahead (ih hc hh)
  | notAhead p => exact .notAhead _
  | filter p accept ih => exact .filter (ih hc hh) accept
  | mapMessage p f ih => exact .mapMessage (ih hc hh) f
  | mapMessageAt p f g ih => exact .mapMessageAt (ih hc hh) f g
  | withMessage p message ih => exact .mapMessage (ih hc hh) _
  | foldSep item delimiter f ihi ihd => exact .foldSep (ihi hc.1 hh) (ihd hc.2 hh) f
  | foldSepRight item delimiter f ihi ihd => exact .foldSepRight (ihi hc.1 hh) (ihd hc.2 hh) f
  | foldMany1 item f ih => exact .foldMany1 (ih hc hh) f
  | foldMany item f default ih => exact .withDefault (.foldMany1 (ih hc hh) f) default
  | inEnv p scanners change => exact .inEnvM _ _
  | onText p subject => exact .onText _ _
  | fresh build ih =>
    exact .fresh fun scope p hp => Except.ok.inj hp ▸ ih scope (hc scope) hh
  | recursive name order rules i ih =>
    refine .entry (fun inner hinner i p hp => Except.ok.inj hp ▸ ih i (hc i) fun v => ?_) i
    -- a handle of a rule is one of its surroundings, or one of the grammar
    cases v with
    | inl v => exact hh v
    | inr j => exact hinner j

/-- **What follows goes on in the environment of the call.** Every parser written by
hand that hands on another one stands inside a change of environment, another text
or a negative lookahead. Then every success, of the whole or of any part of it, is
in the environment of its call, with the same subject, the same to skip and the same
to follow keywords; and whatever is run next runs there. -/
theorem goesOn_in_same_env (c : Construction Γ α) (hc : c.Scoped) {handles : Parsers Γ}
    (hh : ∀ v, (handles v).KeepsEnv) :
    (∀ env n budget k env' stop a log k',
      (c.parser handles).run env n budget k = .done (.ok env' stop a) log k' → env' = env)
    ∧ ∀ {β : Type} (next : α → Parser β) env n,
      ((c.parser handles).bind next).run env n = (do
        match ← (c.parser handles).run env n with
        | .ok _ stop a => (next a).run env stop
        | .fail message about => pure (.fail message about)) := by
  have hkeeps := c.keepsEnv hc hh
  constructor
  · intro env n budget k env' stop a log k' hdone
    exact hkeeps env n hdone
  · intro β next env n
    refine (hkeeps env n).bind_congr fun reply hreply => ?_
    cases reply with
    | ok env' stop a => exact congrArg (fun e => (next a).run e stop) hreply
    | fail message about => rfl

/-- A parser written by hand that hands on an environment where nothing is skipped. -/
def forgetful : Parser Unit := ⟨fun env n => pure (.ok env.withoutSkip n ())⟩

/-- Letters, before each of which the environment is forgotten in another text. -/
def forgetfulLetters : Closed String :=
  .recursive ⟨0, []⟩ [()] (fun _ => .seqRight (.onText (.own forgetful) [])
    (.orElse (.seqRight (.primitive (.string "a" "no letter")) (.handle (Sum.inr ())))
      (.primitive (.succeed "end")))) ()

/-- The blank before the second letter is skipped, and the environment at the end is
the one of the beginning. -/
theorem goesOn_in_same_env_forgetful :
    let env : Env := ⟨[' ', 'a', ' ', 'a'], some (Parser.string " ").scan, none⟩
    forgetfulLetters.Scoped ∧ ¬ forgetful.KeepsEnv
    ∧ ∃ env' log k', forgetfulLetters.toParser.run env 0 4 .initial
        = .done (.ok env' 4 "end") log k' ∧ env' = env := by
  intro env
  have hc : forgetfulLetters.Scoped := fun _ => ⟨trivial, ⟨trivial, trivial⟩, trivial⟩
  have hrun : ∃ env' log k', forgetfulLetters.toParser.run env 0 4 .initial
      = .done (.ok env' 4 "end") log k' := ⟨_, _, _, rfl⟩
  obtain ⟨env', log, k', hdone⟩ := hrun
  refine ⟨hc, fun hkeeps => ?_, env', log, k', hdone, ?_⟩
  · have hdrops : forgetful.run env 0 0 .initial
        = .done (.ok env.withoutSkip 0 ()) [] .initial := rfl
    have hsame : env.withoutSkip = env := hkeeps env 0 hdrops
    exact absurd (congrArg Env.skip hsame) (by simp [env, Env.withoutSkip, Env.withSkip])
  · exact (forgetfulLetters.goesOn_in_same_env hc fun v => v.elim).1 _ _ _ _ _ _ _ _ _ hdone

end Construction

end Descent
