import Descent.Proofs.Distribution
import Descent.Proofs.Progress
import Descent.Proofs.Quoted

/-!
# Texts are matched as if nothing were skipped

Whatever matches text skips first, and then goes on as if nothing were ever skipped: the
run at a position is the run where the skip ends, in the environment without the skip
(`Parser.FactorsThroughSkip`). Only what is handed on tells the two apart. A success goes
on in the environment of the call, and a failure where the skip ended is about the position
of the call, for what was skipped belongs to nobody (`Reply.calledFrom`). Nothing is asked
of what is skipped: its scan may fail, move backwards, report any position, tie grammars,
or not return at all, in which case neither run does.

**What is made of a token.** The value of a real number and the text of a string literal
are made of the reply of a token, which is skipped to. What is made of a reply has to be
made of it in either environment (`FactorsThroughSkip.andThen`), and this is where string
literals are not like sequences. A second token would skip once more; the text of a literal
is read in an environment where nothing is skipped, whichever run it belongs to, and its
failures are about positions behind the opening quote, never about the one where the skip
ended.

**The run without the skip returns**, and neither the budget nor what is tied has a part
in it (`Parser.Steady`), so that whether the text is matched is asked about the text alone.
-/

namespace Descent

/-- **The reply to a call at a position** of what was matched where the skip ended: in the
environment of the call, and a failure there is about the position of the call. -/
def Reply.calledFrom {α : Type} (env : Env) (start n : Nat) : Reply α → Reply α
  | ok _ stop a => ok env stop a
  | fail message about => fail message (if about = some start then some n else about)

/-! ## What neither a budget nor a state has a part in -/

/-- **The evaluation comes to the same at every budget and from every state**, which it
leaves as it is: a value that satisfies a predicate, with the same events. -/
def Eval.Steady {α : Type} (x : Eval α) (P : α → Prop) : Prop :=
  ∃ a log, P a ∧ ∀ budget k, x budget k = .done a log k

namespace Eval.Steady

variable {α β : Type} {x : Eval α} {f : α → Eval β} {P : α → Prop} {Q : β → Prop}

theorem pure {a : α} (h : P a) : (Pure.pure a : Eval α).Steady P :=
  ⟨a, [], h, fun _ _ => rfl⟩

theorem emit (e : Event) : (Eval.emit e).Steady fun _ => True :=
  ⟨(), [e], trivial, fun _ _ => rfl⟩

/-- **Both parts come to the same**, the second for whatever the first comes to. -/
theorem bind (hx : x.Steady P) (hf : ∀ a, P a → (f a).Steady Q) : (x >>= f).Steady Q := by
  obtain ⟨a, log, ha, hdone⟩ := hx
  obtain ⟨b, log', hb, hdone'⟩ := hf a ha
  exact ⟨b, log ++ log', hb, fun budget k =>
    bind_eq_done_iff.mpr ⟨a, log, k, log', hdone budget k, hdone' budget k, rfl⟩⟩

/-- What is done with a reply that goes on in a known environment. -/
theorem bindReply {env : Env} {x : Eval (Reply α)} {f : Reply α → Eval β}
    (hx : x.Steady (Reply.GoesOnIn env)) (hok : ∀ stop a, (f (.ok env stop a)).Steady Q)
    (hfail : ∀ message about, (f (.fail message about)).Steady Q) : (x >>= f).Steady Q := by
  refine .bind hx fun reply hreply => ?_
  cases reply with
  | ok env' stop a => exact (hreply : env' = env) ▸ hok stop a
  | fail message about => exact hfail message about

/-- An event is left in front. -/
theorem emit_bind (e : Event) (hx : x.Steady P) : (Eval.emit e >>= fun _ => x).Steady P :=
  .bind (.emit e) fun _ _ => hx

end Eval.Steady

/-- Where nothing is skipped, the position stays. -/
theorem Env.skipFrom_of_none {env : Env} (h : env.skip = none) (n : Nat) :
    env.skipFrom n = pure n := by
  rw [skipFrom, h]

theorem Env.withoutSkip_skipFrom (env : Env) (n : Nat) : env.withoutSkip.skipFrom n = pure n :=
  skipFrom_of_none rfl n

namespace Parser

variable {α β δ : Type}

/-- **The parser comes to the same reply** at every budget and from every state, where
nothing is skipped. -/
def Steady (p : Parser α) : Prop :=
  ∀ ⦃env⦄ n, env.skip = none → (p.run env n).Steady (Reply.GoesOnIn env)

namespace Steady

theorem succeed (a : α) : (Parser.succeed a).Steady := fun _ _ _ => .pure rfl

theorem fail (message : String) : (Parser.fail message : Parser α).Steady :=
  fun _ _ _ => .pure trivial

theorem token (read : Reader) (message : String) : (Parser.token read message).Steady := by
  intro env n hskip
  show (env.skipFrom n >>= _).Steady _
  rw [Env.skipFrom_of_none hskip, Eval.pure_bind]
  cases (env.from? n).bind read with
  | none => exact .pure trivial
  | some m => exact .pure rfl

theorem endWith (message : String) : (Parser.endWith message).Steady := by
  intro env n hskip
  show (env.skipFrom n >>= _).Steady _
  rw [Env.skipFrom_of_none hskip, Eval.pure_bind]
  split
  · exact .pure rfl
  · exact .pure trivial

theorem bind {p : Parser α} {f : α → Parser β} (hp : p.Steady) (hf : ∀ a, (f a).Steady) :
    (p.bind f).Steady :=
  fun _ n hskip => .bindReply (hp n hskip) (fun stop a => hf a stop hskip)
    fun _ _ => .pure trivial

theorem map {p : Parser α} (f : α → β) (hp : p.Steady) : (p.map f).Steady := by
  rw [map_eq_bind]
  exact hp.bind fun a => succeed (f a)

theorem seqLeft {p : Parser α} {q : Parser β} (hp : p.Steady) (hq : q.Steady) :
    (p.seqLeft q).Steady := by
  rw [seqLeft_eq_bind]
  exact hp.bind fun a => hq.map fun _ => a

theorem orElse {p q : Parser α} (hp : p.Steady) (hq : q.Steady) : (p.orElse q).Steady :=
  fun _ n hskip => .bindReply (hp n hskip) (fun _ _ => .pure rfl)
    fun _ _ => .emit_bind _ (hq n hskip)

theorem withDefault {p : Parser α} (hp : p.Steady) (default : α) :
    (p.withDefault default).Steady :=
  fun _ n hskip => .bindReply (hp n hskip) (fun _ _ => .pure rfl) fun _ _ => .pure rfl

/-- A failure that is given words. -/
theorem withMessage {p : Parser α} (hp : p.Steady) {message : String} (h : message ≠ "") :
    (p.withMessage message).Steady := by
  intro env n hskip
  refine .bindReply (hp n hskip) (fun _ _ => .pure rfl) fun message' about => ?_
  show (if message.isEmpty then _ else _ : Eval (Reply α)).Steady _
  rw [if_neg (by simpa using h)]
  exact .pure trivial

theorem inEnv {p : Parser α} (hp : p.Steady) : (p.inEnv Env.withoutSkip).Steady := by
  intro env n hskip
  refine .bind (hp n rfl) fun reply _ => .pure ?_
  cases reply with
  | ok env' stop a => exact rfl
  | fail message about => exact trivial

variable {item : Parser α} {delimiter : Parser δ}

/-- A round goes on in the environment where it began. -/
theorem round (hitem : item.Steady) (hdelimiter : delimiter.Steady) {env : Env} (n : Nat)
    (hskip : env.skip = none) :
    (Parser.round item delimiter env n).Steady fun r => ∀ r', r = some r' → r'.env = env := by
  have hend : ∀ reason, (Eval.emit reason >>= fun _ =>
      (Pure.pure none : Eval (Option (Round δ α)))).Steady fun r => ∀ r', r = some r' →
        r'.env = env :=
    fun reason => .emit_bind reason (.pure (by simp))
  refine .bindReply (hdelimiter n hskip) (fun middle d => ?_) fun _ _ => hend _
  refine .bindReply (hitem middle hskip) (fun stop a => ?_) fun _ _ => hend _
  show (if advances n stop then Pure.pure (some _) else _ : Eval (Option (Round δ α))).Steady _
  split
  · exact .pure fun r' hr' => Option.some.inj hr' ▸ rfl
  · exact hend _

/-- The induction is on the rounds that are allowed. -/
theorem rounds (hitem : item.Steady) (hdelimiter : delimiter.Steady) (left : Nat) {env : Env}
    (n : Nat) (hskip : env.skip = none) :
    (Parser.rounds item delimiter left env n).Steady fun chain =>
      ∀ stop a, (Round.reply env stop chain a).GoesOnIn env := by
  induction left generalizing n with
  | zero =>
    unfold Parser.rounds
    refine .bind (round hitem hdelimiter n hskip) fun r _ => ?_
    cases r <;> exact .pure fun _ _ => rfl
  | succ left ih =>
    unfold Parser.rounds
    refine .bind (round hitem hdelimiter n hskip) fun r hr => ?_
    cases r with
    | none => exact .pure fun _ _ => rfl
    | some r =>
      obtain rfl := hr r rfl
      exact .bind (ih r.stop) fun chain hchain => .pure fun _ a => hchain r.stop a

/-- **A repetition comes to an end**, after the same rounds. -/
theorem repetition (hitem : item.Steady) (hdelimiter : delimiter.Steady)
    (value : α → List (Round δ α) → α) : (Parser.repetition item delimiter value).Steady :=
  fun _ n hskip => .bindReply (hitem n hskip)
    (fun stop _ => .bind (rounds hitem hdelimiter _ stop hskip) fun _ hchain =>
      .pure (hchain stop _))
    fun _ _ => .pure trivial

/-- Adjacent items have an empty text between them, which is a token. -/
theorem foldMany1 (hitem : item.Steady) (f : α → α → α) : (item.foldMany1 f).Steady := by
  rw [foldMany1_eq_repetition]
  exact hitem.repetition (.token _ _) _

end Steady

end Parser

namespace Literal

open Descent.Parser

variable (quote : Char) (escape : Escape) (format : StringFormat)

theorem Steady.decoded (read : Reader) (pattern : String) (meaning : Text → Option Text) :
    (decoded read pattern meaning).Steady := by
  intro env n hskip
  have htoken : (Parser.token read ("Does not match pattern " ++ pattern)).Steady := .token _ _
  refine .bindReply (htoken n hskip) (fun stop text => ?_) fun _ _ => .pure trivial
  simp only []
  split
  · exact .pure rfl
  · exact .pure trivial

/-- The fragments up to the closing quote. -/
theorem Steady.body : (body quote escape format).Steady := by
  have hfragment : (fragment quote escape format).Steady :=
    fragment_induction .orElse (fun _ => Steady.decoded _ _ _) (Steady.decoded _ _ _)
      (.map _ (.token _ _))
  have hfragments : ((fragment quote escape format).foldMany (fun a b => a ++ b) []).Steady :=
    .withDefault (.foldMany1 hfragment _) _
  exact .inEnv (.seqLeft hfragments (.token _ _))

theorem Steady.quotedWith {message : String} (h : message ≠ "") :
    (quotedWith quote escape format message).Steady :=
  .withMessage (.map _ (.bind (.token _ _) fun _ => Steady.body quote escape format)) h

end Literal

/-! ## The run after what is skipped -/

namespace Parser

variable {α β : Type}

/-- **The parser factors through what is skipped**: it is the parser where nothing is
skipped, run where the skip ends. -/
def FactorsThroughSkip (p : Parser α) : Prop :=
  ∀ env n, p.run env n = env.skipFrom n >>= fun start =>
    p.run env.withoutSkip start >>= fun reply => pure (reply.calledFrom env start n)

namespace FactorsThroughSkip

theorem token (read : Reader) (message : String) :
    (Parser.token read message).FactorsThroughSkip := by
  intro env n
  have hread (start : Nat) :
      (env.withoutSkip.from? start).bind read = (env.from? start).bind read := rfl
  simp only [Parser.token, Env.withoutSkip_skipFrom, Eval.pure_bind, hread]
  refine congrArg (env.skipFrom n >>= ·) (funext fun start => ?_)
  cases (env.from? start).bind read with
  | none => simp only [Eval.pure_bind, Reply.calledFrom, if_true]
  | some m => exact (Eval.pure_bind _ _).symm

theorem endWith (message : String) : (Parser.endWith message).FactorsThroughSkip := by
  intro env n
  have hlength : env.withoutSkip.length = env.length := rfl
  simp only [Parser.endWith, Env.withoutSkip_skipFrom, Eval.pure_bind, hlength]
  refine congrArg (env.skipFrom n >>= ·) (funext fun start => ?_)
  split
  · exact (Eval.pure_bind _ _).symm
  · simp only [Eval.pure_bind, Reply.calledFrom, if_true]

/-- **What is made of a reply** factors through the skip with it, if the same is made of
the replies of both runs. Something may be known of the reply where nothing is skipped. -/
theorem andThen {p : Parser α} {f : Reply α → Eval (Reply β)} {P : Env → Nat → Reply α → Prop}
    (hp : p.FactorsThroughSkip)
    (hreply : ∀ env start, (p.run env.withoutSkip start).Ensures (P env start))
    (hf : ∀ env start n reply, P env start reply → f (reply.calledFrom env start n)
      = f reply >>= fun reply' => pure (reply'.calledFrom env start n)) :
    (⟨fun env n => p.run env n >>= f⟩ : Parser β).FactorsThroughSkip := by
  intro env n
  calc p.run env n >>= f
      = env.skipFrom n >>= fun start => p.run env.withoutSkip start >>= fun reply =>
          f (reply.calledFrom env start n) := by
        rw [hp env n]
        simp only [Eval.bind_assoc, Eval.pure_bind]
    _ = env.skipFrom n >>= fun start => p.run env.withoutSkip start >>= fun reply =>
          f reply >>= fun reply' => pure (reply'.calledFrom env start n) :=
        congrArg (env.skipFrom n >>= ·) (funext fun start =>
          (hreply env start).bind_congr (hf env start n))
    _ = _ := by simp only [Eval.bind_assoc]

/-- Nothing need be known of the reply. -/
theorem andThen_any {p : Parser α} {f : Reply α → Eval (Reply β)} (hp : p.FactorsThroughSkip)
    (hf : ∀ env start n reply, f (reply.calledFrom env start n)
      = f reply >>= fun reply' => pure (reply'.calledFrom env start n)) :
    (⟨fun env n => p.run env n >>= f⟩ : Parser β).FactorsThroughSkip :=
  hp.andThen (P := fun _ _ _ => True) (fun _ _ _ _ _ _ _ _ => trivial)
    fun env start n reply _ => hf env start n reply

theorem map {p : Parser α} (f : α → β) (hp : p.FactorsThroughSkip) :
    (p.map f).FactorsThroughSkip := by
  refine hp.andThen_any fun env start n reply => ?_
  rw [Eval.pure_bind]
  cases reply <;> rfl

/-- Another message, about the same position. -/
theorem withMessage {p : Parser α} (hp : p.FactorsThroughSkip) (message : String) :
    (p.withMessage message).FactorsThroughSkip := by
  refine hp.andThen_any fun env start n reply => ?_
  cases reply with
  | ok env' stop a => exact (Eval.pure_bind _ _).symm
  | fail message' about =>
    show (if message.isEmpty then _ else _) = (if message.isEmpty then _ else _) >>= _
    split
    · rfl
    · exact (Eval.pure_bind _ _).symm

/-- A real number is converted where it ends, and a conversion that fails is about no
position. -/
theorem realWith (message : String) : (Parser.realWith message).FactorsThroughSkip := by
  refine (token Reader.real message).andThen_any fun env start n reply => ?_
  cases reply with
  | fail message' about => exact (Eval.pure_bind _ _).symm
  | ok env' stop text =>
    simp only [Reply.calledFrom]
    cases Decimal.value? text.toList <;> exact (Eval.pure_bind _ _).symm

end FactorsThroughSkip

end Parser

namespace Literal

open Descent.Parser

variable (quote : Char) (escape : Escape) (format : StringFormat)

/-- Behind the opening quote nothing is skipped in either run, and no failure is about a
position in front of where the text begins. -/
theorem body_run {start stop : Nat} (h : start < stop) (env : Env) (n : Nat) :
    (body quote escape format).run env stop
      = (body quote escape format).run env.withoutSkip stop >>= fun reply =>
          pure (reply.calledFrom env start n) := by
  have honward : (((fragment quote escape format).foldMany (fun a b => a ++ b) []).seqLeft
      (Parser.string (String.singleton quote))).Onward False stop :=
    .seqLeft (.withDefault (.foldMany1 (Onward.fragment quote escape format) _) _) (.token _ _)
  rw [body, inEnv_run_bind]
  refine (honward env.withoutSkip stop (Nat.le_refl stop)).bind_congr fun reply hreply => ?_
  cases reply with
  | ok env' stop' a => rfl
  | fail message about =>
    cases about with
    | none => exact hreply.elim
    | some about =>
      have hne : some about ≠ some start := by
        rintro ⟨⟩
        exact absurd (Nat.lt_of_lt_of_le h hreply) (Nat.lt_irrefl start)
      exact congrArg (fun about => pure (Reply.fail message about)) (if_neg hne).symm

/-- **Nothing is skipped inside a literal**, and where its text goes wrong, both runs say so
of the same position. -/
theorem quotedWith_factorsThroughSkip (message : String) :
    (quotedWith quote escape format message).FactorsThroughSkip := by
  have hquote : (Parser.string (String.singleton quote)).FactorsThroughSkip := .token _ _
  have hopening (env : Env) (start : Nat) :
      ((Parser.string (String.singleton quote)).run env.withoutSkip start).Ensures fun reply =>
        ∀ env' stop text, reply = .ok env' stop text → env' = env.withoutSkip ∧ start < stop := by
    rw [string_quote_run, Env.withoutSkip_skipFrom, Eval.pure_bind]
    refine .pure fun env' stop text h => ?_
    split at h
    · obtain ⟨rfl, rfl, rfl⟩ := Reply.ok.inj h
      exact ⟨rfl, Nat.lt_add_of_pos_right quote.utf8Size_pos⟩
    · exact absurd h (by simp)
  refine .withMessage (.map _ (hquote.andThen hopening fun env start n reply hreply => ?_)) message
  cases reply with
  | ok env' stop text =>
    obtain ⟨rfl, hstop⟩ := hreply env' stop text rfl
    show (body quote escape format).run env stop
      = (body quote escape format).run env.withoutSkip stop >>= _
    exact body_run quote escape format hstop env n
  | fail message' about => exact (Eval.pure_bind _ _).symm

end Literal

/-! ## Whatever matches text -/

/-- The primitives that match text themselves and have no rule about what follows. A string
literal has to say something when it fails. -/
def Primitive.MatchesText {α : Type} : Primitive α → Prop
  | .string .. | .ignoreCase .. | .pattern .. | .real _ | .atEnd _ | .javaIdentifier _ => True
  | .quoted _ _ _ message => message ≠ ""
  | _ => False

namespace Primitive

variable {α : Type} {p : Primitive α}

theorem factorsThroughSkip (hp : p.MatchesText) : p.parser.FactorsThroughSkip := by
  cases p with
  | string => exact .token _ _
  | ignoreCase => exact .token _ _
  | pattern text message p valid =>
    obtain ⟨program, rfl⟩ := Parser.exists_matching valid
    exact .token _ message
  | real => exact .realWith _
  | atEnd => exact .endWith _
  | javaIdentifier => exact .token _ _
  | quoted => exact Literal.quotedWith_factorsThroughSkip _ _ _ _
  | key | keyIgnoreCase | number | succeed | fail | position | moveTo => exact hp.elim

theorem steady (hp : p.MatchesText) : p.parser.Steady := by
  cases p with
  | string => exact .token _ _
  | ignoreCase => exact .token _ _
  | pattern text message p valid =>
    obtain ⟨program, rfl⟩ := Parser.exists_matching valid
    exact .token _ message
  | real message =>
    refine .bind (.token .real message) fun text => ?_
    split
    · exact .succeed _
    · exact .fail _
  | atEnd => exact .endWith _
  | javaIdentifier => exact .token _ _
  | quoted => exact Literal.Steady.quotedWith _ _ _ hp
  | key | keyIgnoreCase | number | succeed | fail | position | moveTo => exact hp.elim

end Primitive

namespace Reply

variable {α : Type} {env : Env} {start n : Nat} {reply : Reply α}

theorem calledFrom_eq_ok_iff {env₀ : Env} (hreply : reply.GoesOnIn env₀) {env' : Env} {stop : Nat}
    {a : α} : reply.calledFrom env start n = .ok env' stop a
      ↔ env' = env ∧ reply = .ok env₀ stop a := by
  cases reply with
  | fail message about => simp [calledFrom]
  | ok env₁ stop₁ a₁ =>
    obtain rfl : env₁ = env₀ := hreply
    simp only [calledFrom, ok.injEq, true_and]
    exact ⟨fun ⟨h, h'⟩ => ⟨h.symm, h'⟩, fun ⟨h, h'⟩ => ⟨h.symm, h'⟩⟩

theorem calledFrom_eq_fail_iff {message : String} {about : Option Nat} :
    reply.calledFrom env start n = .fail message about
      ↔ ∃ about', reply = .fail message about'
        ∧ about = if about' = some start then some n else about' := by
  cases reply with
  | ok env₁ stop₁ a₁ => simp [calledFrom]
  | fail message₁ about₁ =>
    simp only [calledFrom, fail.injEq]
    constructor
    · rintro ⟨rfl, rfl⟩
      exact ⟨about₁, ⟨rfl, rfl⟩, rfl⟩
    · rintro ⟨about', ⟨rfl, rfl⟩, rfl⟩
      exact ⟨rfl, rfl⟩

end Reply

namespace Primitive

/-- **Texts are matched as if nothing were skipped.** At a position of an environment,
whatever matches text does what it does where the skip ends, in the environment without the
skip. There it returns, at every budget and from every state. The call succeeds if and only
if it succeeds there, with the same end and value, in the environment of the call; and it
fails if and only if it fails there, with the same message, about the position of the call
in place of the one where the skip ended and about the same position otherwise. -/
theorem run_eq_unskipped {α : Type} (p : Primitive α) (hp : p.MatchesText) (env : Env) (n : Nat) :
    (p.parser.run env n = env.skipFrom n >>= fun start =>
      p.parser.run env.withoutSkip start >>= fun reply => pure (reply.calledFrom env start n))
    ∧ ∀ start, ∃ unskipped events,
      (∀ budget k, p.parser.run env.withoutSkip start budget k = .done unskipped events k)
      ∧ ∀ budget k log k', env.skipFrom n budget k = .done start log k' →
        ∃ reply, p.parser.run env n budget k = .done reply (log ++ events) k'
          ∧ (∀ env' stop a, reply = .ok env' stop a
            ↔ env' = env ∧ unskipped = .ok env.withoutSkip stop a)
          ∧ ∀ message about, reply = .fail message about
            ↔ ∃ about', unskipped = .fail message about'
              ∧ about = if about' = some start then some n else about' := by
  have hrun := factorsThroughSkip hp env n
  refine ⟨hrun, fun start => ?_⟩
  have hsteady : (p.parser.run env.withoutSkip start).Steady (Reply.GoesOnIn env.withoutSkip) :=
    steady hp start rfl
  obtain ⟨unskipped, events, hkeeps, hunskipped⟩ := hsteady
  refine ⟨unskipped, events, hunskipped, fun budget k log k' hskip => ?_⟩
  refine ⟨unskipped.calledFrom env start n, ?_, fun env' stop a => ?_, fun message about => ?_⟩
  · rw [hrun]
    refine Eval.bind_eq_done_iff.mpr ⟨start, log, k', events, hskip, ?_, rfl⟩
    exact Eval.bind_eq_done_iff.mpr ⟨unskipped, events, k', [], hunskipped budget k', rfl,
      (List.append_nil events).symm⟩
  · exact Reply.calledFrom_eq_ok_iff hkeeps
  · exact Reply.calledFrom_eq_fail_iff

/-- A blank is skipped before a literal that does not end. The failure is about the end, as it
is where nothing is skipped. -/
theorem run_eq_unskipped_unclosed :
    let env : Env := ⟨" '".toList, some (Parser.string " ").scan, none⟩
    ∃ log k', (quoted '\'' .js .js "No literal").parser.run env 0 0 .initial
      = .done (.fail "No literal" (some 2)) log k' := by
  intro env
  have hmatches : (quoted '\'' .js .js "No literal").MatchesText := by
    show "No literal" ≠ ""
    decide
  obtain ⟨-, hstart⟩ := run_eq_unskipped (quoted '\'' .js .js "No literal") hmatches env 0
  obtain ⟨unskipped, events, hunskipped, hrun⟩ := hstart 1
  have hskip : env.skipFrom 0 0 .initial = .done 1 [] .initial := rfl
  obtain ⟨reply, hdone, -, hfail⟩ := hrun 0 .initial [] .initial hskip
  have hunclosed : ∃ log k', (quoted '\'' .js .js "No literal").parser.run env.withoutSkip 1 0
      .initial = .done (.fail "No literal" (some 2)) log k' := ⟨_, _, rfl⟩
  obtain ⟨log, k', hunclosed⟩ := hunclosed
  obtain ⟨hreply, -, -⟩ := Outcome.done.inj ((hunskipped 0 .initial).symm.trans hunclosed)
  have hsame : reply = .fail "No literal" (some 2) :=
    (hfail "No literal" (some 2)).mpr ⟨some 2, hreply, by decide⟩
  exact ⟨_, _, hsame ▸ hdone⟩

end Primitive

end Descent
