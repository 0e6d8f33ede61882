import Descent.Proofs.Construction
import Descent.Proofs.Evaluation
import Descent.Proofs.Real
import Descent.Proofs.Rounds

/-!
# Parsers move onward

A parser that is called at a position ends there or beyond, and what it says of
a failure is about a position there or beyond. Nothing is assumed of what the
environment skips: it may fail, move backwards, or be written by hand
(`Env.skipFrom_onward`). Nor does it matter in which environments a grammar runs
its parts, so that a change of environment is under no restriction at all.

The invariant is `Parser.Onward`: called at or beyond a position, the parser
reports nothing before it. The position is fixed along a whole grammar, since
whatever runs later is called where something before it ended, or where it was
called itself; and a parser that has the invariant for every position has it for
the one where it is called. Only a number literal makes use of more than that,
which keeps the position of its sign for its failures.

Three things are not subject to the invariant, and a grammar must not use them
where it runs at positions of its own: a move to a position, a parser written by
hand, and a failure that is told to be about another position
(`Construction.NoJumps`). Below a negative lookahead and over another text
anything may be used, since these report the position of their call alone; and a
round of a repetition advances or is not accepted, whatever its delimiter does.

A failure is about a position unless it is the one of `Parser.fail`. The
parameter `silent` says whether that one may occur.
-/

namespace Descent

/-- **What a failure may be about**: a position, or one beyond it; or none, where
failures may be silent. -/
def Reply.AboutOnward (silent : Prop) (start : Nat) : Option Nat → Prop
  | some about => start ≤ about
  | none => silent

/-- **The reply is about what stands at a position or beyond it.** -/
def Reply.Onward {α : Type} (silent : Prop) (start : Nat) : Reply α → Prop
  | .ok _ stop _ => start ≤ stop
  | .fail _ about => AboutOnward silent start about

/-- **What is done with a reply** that is about what stands onward. -/
theorem Eval.Ensures.bindOnward {α β : Type} {silent : Prop} {start : Nat} {x : Eval (Reply α)}
    {f : Reply α → Eval β} {Q : β → Prop} (hx : x.Ensures (Reply.Onward silent start))
    (hok : ∀ env stop a, start ≤ stop → (f (.ok env stop a)).Ensures Q)
    (hfail : ∀ message about, Reply.AboutOnward silent start about →
      (f (.fail message about)).Ensures Q) : (x >>= f).Ensures Q := by
  refine .bind hx fun reply hreply => ?_
  cases reply with
  | ok env stop a => exact hok env stop a hreply
  | fail message about => exact hfail message about hreply

/-- **Skipping never moves backwards**, whatever the scan reports. -/
theorem Env.skipFrom_onward (env : Env) (n : Nat) : (env.skipFrom n).Ensures (n ≤ ·) := by
  unfold Env.skipFrom
  cases env.skip with
  | none => exact .pure (Nat.le_refl n)
  | some scan =>
    refine .bind_any fun stop => ?_
    cases stop with
    | none => exact .pure (Nat.le_refl n)
    | some stop =>
      refine .pure ?_
      split
      · next h => exact h
      · exact Nat.le_refl n

namespace Parser

variable {α β γ δ : Type} {silent : Prop} {start : Nat}

/-- **The parser moves onward from a position**: called there or beyond, in any
environment, it reports nothing before it. -/
def Onward (silent : Prop) (start : Nat) (p : Parser α) : Prop :=
  ∀ env n, start ≤ n → (p.run env n).Ensures (Reply.Onward silent start)

namespace Onward

/-! ## Parsers that are not made of others -/

theorem succeed (a : α) : (Parser.succeed a).Onward silent start := fun _ _ hn => .pure hn

theorem fail (h : silent) (message : String) :
    (Parser.fail message : Parser α).Onward silent start :=
  fun _ _ _ => .pure h

theorem position : Parser.position.Onward silent start := fun _ _ hn => .pure hn

theorem token (read : Reader) (message : String) :
    (Parser.token read message).Onward silent start := by
  intro env n hn
  refine .bind (env.skipFrom_onward n) fun next hnext => ?_
  cases (env.from? next).bind read with
  | none => exact .pure hn
  | some m => exact .pure (Nat.le_trans hn (Nat.le_trans hnext (Nat.le_add_right _ _)))

theorem endWith (message : String) : (Parser.endWith message).Onward silent start := by
  intro env n hn
  refine .bind (env.skipFrom_onward n) fun next hnext => ?_
  split
  · exact .pure (Nat.le_trans hn hnext)
  · exact .pure hn

/-- A keyword that goes on is a failure about where the token ends. -/
theorem bounded {p : Parser String} (hp : p.Onward silent start) (message : String) :
    (p.bounded message).Onward silent start := by
  intro env n hn
  refine .bindOnward (hp env n hn) (fun env' stop text hstop => .bind_any fun may => ?_)
    fun _ _ _ => .pure hn
  split
  · exact .pure hstop
  · exact .bind_any fun _ => .pure hstop

/-! ## Sequences -/

theorem bind {p : Parser α} {f : α → Parser β} (hp : p.Onward silent start)
    (hf : ∀ a, (f a).Onward silent start) : (p.bind f).Onward silent start :=
  fun env n hn => .bindOnward (hp env n hn) (fun env' stop a hstop => hf a env' stop hstop)
    fun _ _ habout => .pure habout

/-- The position that is yielded is the one from which what follows has to move onward. -/
theorem position_bind {f : Nat → Parser β}
    (hf : ∀ n, start ≤ n → (f n).Onward silent start) :
    (Parser.position.bind f).Onward silent start := by
  intro env n hn
  show ((Pure.pure (Reply.ok env n n) : Eval (Reply Nat)) >>= _).Ensures _
  rw [Eval.pure_bind]
  exact hf n hn env n hn

theorem map {p : Parser α} (f : α → β) (hp : p.Onward silent start) :
    (p.map f).Onward silent start := by
  rw [map_eq_bind]
  exact hp.bind fun a => succeed (f a)

theorem bindMap {p : Parser α} {k : α → Parser β} (f : α → β → γ) (hp : p.Onward silent start)
    (hk : ∀ a, (k a).Onward silent start) : (p.bindMap k f).Onward silent start := by
  rw [bindMap_eq_bind]
  exact hp.bind fun a => (hk a).map (f a)

theorem seqRight {p : Parser α} {q : Parser β} (hp : p.Onward silent start)
    (hq : q.Onward silent start) : (p.seqRight q).Onward silent start :=
  hp.bind fun _ => hq

theorem seqLeft {p : Parser α} {q : Parser β} (hp : p.Onward silent start)
    (hq : q.Onward silent start) : (p.seqLeft q).Onward silent start := by
  rw [seqLeft_eq_bind]
  exact hp.bind fun a => hq.map fun _ => a

/-! ## Parsers that go back

They go back to where they were called, and no further. -/

theorem firstOf {ps : List (Parser α)} (hps : ∀ p ∈ ps, p.Onward silent start) (env : Env)
    {n : Nat} (hn : start ≤ n) (index : Nat) {failure : Reply α}
    (hfailure : failure.Onward silent start) :
    (Parser.firstOf index failure ps env n).Ensures (Reply.Onward silent start) := by
  induction ps generalizing index failure with
  | nil => exact .pure hfailure
  | cons p ps ih =>
    refine .bindOnward (hps p List.mem_cons_self env n hn) (fun _ _ _ hstop => .pure hstop)
      fun message about habout => .bind_any fun _ => ?_
    exact ih (fun q hq => hps q (List.mem_cons_of_mem p hq)) (index + 1) habout

theorem choice {ps : List (Parser α)} (hps : ∀ p ∈ ps, p.Onward silent start) :
    (Parser.choice ps).Onward silent start :=
  fun env _ hn => firstOf hps env hn 0 hn

theorem orElse {p q : Parser α} (hp : p.Onward silent start) (hq : q.Onward silent start) :
    (p.orElse q).Onward silent start :=
  fun env n hn => .bindOnward (hp env n hn) (fun _ _ _ hstop => .pure hstop)
    fun _ _ _ => .bind_any fun _ => hq env n hn

theorem withDefault {p : Parser α} (hp : p.Onward silent start) (default : α) :
    (p.withDefault default).Onward silent start :=
  fun env n hn => .bindOnward (hp env n hn) (fun _ _ _ hstop => .pure hstop)
    fun _ _ _ => .pure hn

theorem optional {p : Parser α} (hp : p.Onward silent start) : p.optional.Onward silent start :=
  (hp.map some).withDefault none

theorem lookahead {p : Parser α} (hp : p.Onward silent start) :
    p.lookahead.Onward silent start :=
  fun env n hn => .bindOnward (hp env n hn) (fun _ _ _ _ => .pure hn)
    fun _ _ habout => .pure habout

theorem filter {p : Parser α} (hp : p.Onward silent start) (accept : α → Bool) :
    (p.filter accept).Onward silent start := by
  intro env n hn
  refine .bindOnward (hp env n hn) (fun env' stop a hstop => ?_) fun _ _ habout => .pure habout
  simp only []
  split
  · exact .pure hstop
  · exact .pure hn

/-- A failure that is changed has to be changed to be about something onward. It may
have been silent before. -/
theorem mapFailure {p : Parser α} {f : String → Option Nat → String × Option Nat}
    {silent' : Prop} (hp : p.Onward silent' start)
    (hf : ∀ message about, Reply.AboutOnward silent' start about →
      Reply.AboutOnward silent start (f message about).2) :
    (p.mapFailure f).Onward silent start := by
  intro env n hn
  refine .bindOnward (hp env n hn) (fun _ _ _ hstop => .pure hstop) fun message about habout => ?_
  show (if (f message about).1.isEmpty then Eval.stop .emptyMessage
    else Pure.pure (Reply.fail (f message about).1 (f message about).2)).Ensures _
  split
  · exact .stop _
  · exact .pure (hf message about habout)

theorem mapMessage {p : Parser α} (hp : p.Onward silent start) (f : String → String) :
    (p.mapMessage f).Onward silent start :=
  hp.mapFailure fun _ _ habout => habout

/-! ## Repetition -/

/-- **A round that is accepted ends strictly beyond where it began**, whatever its
delimiter and its item do. -/
theorem round (item : Parser α) (delimiter : Parser δ) (env : Env) (n : Nat) :
    (Parser.round item delimiter env n).Ensures fun r => ∀ r', r = some r' → n < r'.stop := by
  have hend : ∀ reason, (Eval.emit reason >>= fun _ =>
      (Pure.pure none : Eval (Option (Round δ α)))).Ensures fun r => ∀ r', r = some r' →
        n < r'.stop :=
    fun _ => .bind_any fun _ => .pure (by simp)
  refine .bind_any fun reply => ?_
  cases reply with
  | fail message about => exact hend _
  | ok env₁ middle d =>
    refine .bind_any fun reply => ?_
    cases reply with
    | fail message about => exact hend _
    | ok env₂ stop a =>
      simp only []
      split
      · next hadvances =>
        rw [advances, Bool.and_eq_true, decide_eq_true_eq] at hadvances
        exact .pure fun r' hr' => Option.some.inj hr' ▸ hadvances.1
      · exact hend _

/-- The chain of rounds ends at or beyond where it began. The induction is on the
rounds that are allowed. -/
theorem rounds (item : Parser α) (delimiter : Parser δ) (left : Nat) (env : Env) {n : Nat}
    (hn : start ≤ n) :
    (Parser.rounds item delimiter left env n).Ensures fun chain =>
      ∀ a, (Round.reply env n chain a).Onward silent start := by
  induction left generalizing env n with
  | zero =>
    unfold Parser.rounds
    exact .bind_any fun r => by cases r <;> exact .pure fun _ => hn
  | succ left ih =>
    unfold Parser.rounds
    refine .bind (round item delimiter env n) fun r hr => ?_
    cases r with
    | none => exact .pure fun _ => hn
    | some r =>
      have hstop : start ≤ r.stop := Nat.le_trans hn (Nat.le_of_lt (hr r rfl))
      exact .bind (ih r.env hstop) fun chain hchain => .pure hchain

theorem repetition {item : Parser α} (hitem : item.Onward silent start) (delimiter : Parser δ)
    (value : α → List (Round δ α) → α) :
    (Parser.repetition item delimiter value).Onward silent start :=
  fun env n hn => .bindOnward (hitem env n hn)
    (fun env' _ _ hstop => .bind (rounds item delimiter _ env' hstop) fun _ hchain =>
      .pure (hchain _))
    fun _ _ habout => .pure habout

/-- Every round goes onward, whatever the delimiter does. -/
theorem foldSep {item : Parser α} (hitem : item.Onward silent start) (delimiter : Parser δ)
    (f : α → δ → α → α) : (item.foldSep delimiter f).Onward silent start := by
  rw [foldSep_eq_repetition]
  exact hitem.repetition delimiter _

theorem foldSepRight {item : Parser α} (hitem : item.Onward silent start) (delimiter : Parser δ)
    (f : α → δ → α → α) : (item.foldSepRight delimiter f).Onward silent start := by
  rw [foldSepRight_eq_repetition]
  exact hitem.repetition delimiter _

theorem foldMany1 {item : Parser α} (hitem : item.Onward silent start) (f : α → α → α) :
    (item.foldMany1 f).Onward silent start :=
  hitem.foldSep (string "") _

/-! ## Other environments and other texts -/

/-- **A change of environment** changes no position. -/
theorem inEnvM {p : Parser α} (hp : p.Onward silent start) (change : Env → Eval Env) :
    (p.inEnvM change).Onward silent start :=
  fun _ n hn => .bind_any fun env' => .bindOnward (hp env' n hn)
    (fun _ _ _ hstop => .pure hstop) fun _ _ habout => .pure habout

theorem inEnv {p : Parser α} (hp : p.Onward silent start) (change : Env → Env) :
    (p.inEnv change).Onward silent start := by
  rw [Construction.inEnv_eq_inEnvM]
  exact hp.inEnvM _

/-- A negative lookahead reports the position of its call. -/
theorem notAhead (p : Parser α) : p.notAhead.Onward silent start := by
  intro env n hn
  refine .bind_any fun reply => ?_
  cases reply with
  | ok env' stop a => exact .pure hn
  | fail message about => exact .pure hn

/-- Over another text no position is handed on. -/
theorem onText (p : Parser α) (subject : Text) : (p.onText subject).Onward silent start := by
  intro env n hn
  refine .bind_any fun reply => ?_
  cases reply with
  | ok env' stop a => exact .pure hn
  | fail message about => exact .pure hn

/-! ## Grammars that are built during the run, and recursive grammars -/

theorem fresh {build : Nat → Except Fault (Parser α)}
    (hbuild : ∀ scope p, build scope = .ok p → p.Onward silent start) :
    (Parser.fresh build).Onward silent start := by
  intro env n hn
  refine .bind_any fun scope => .bind (.ofExcept fun p hp => hbuild scope p hp) fun p hp => ?_
  exact .bind (hp env n hn) fun reply hreply => .bind_any fun _ => .pure hreply

/-- **A recursive grammar moves onward if its rules do**, given handles that do. The
induction is on the calls that are left. -/
theorem entry {ι : Type} {τ : ι → Type} {grammar : Knot τ}
    (hrules : ∀ handles : Parsers τ, (∀ j, (handles j).Onward silent start) →
      ∀ i p, grammar.rule i handles = .ok p → p.Onward silent start) (i : ι) :
    (grammar.entry i).Onward silent start := by
  have hcall : ∀ budget i, (⟨grammar.call budget i⟩ : Parser (τ i)).Onward silent start := by
    intro budget
    induction budget with
    | zero => exact fun _ _ _ _ => .giveUp
    | succ budget ih =>
      intro i env n hn
      refine .bind_any fun _ => .bind (.ofExcept (hrules _ (fun j env n hn => ?_) i))
        fun p hp => .withBudget (hp env n hn)
      exact .bind_any fun _ => ih j env n hn
  exact fun env n hn => .bind_any fun budget => hcall budget i env n hn

end Onward

end Parser

/-! ## Literals and other primitives -/

namespace Literal

open Descent.Parser

variable {silent : Prop} {start : Nat}

/-- A run of digits that is too large fails silently; the literal tells later what
that is about. -/
theorem Onward.digits (pattern : String) (accept : Char → Bool) (base : Nat) :
    (digits pattern accept base).Onward True start := by
  refine .bind (.token (Reader.run1 accept) _) fun text => ?_
  show Parser.Onward True start (if _ then _ else _)
  split
  · exact .succeed _
  · exact .fail trivial _

theorem Onward.magnitude (format : NumberFormat) : (magnitude format).Onward True start := by
  have marked : ∀ {marker : String} {p : Parser Nat}, p.Onward True start →
      ((Parser.string marker).seqRight p).Onward True start := fun hp => .seqRight (.token _ _) hp
  exact magnitude_induction .orElse (marked (Onward.digits _ _ _))
    (marked (Onward.digits _ _ _)) (marked (Onward.digits _ _ _)) (Onward.digits _ _ _) format

/-- **A number literal** fails about the position of its sign, whatever is wrong with
its magnitude. -/
theorem Onward.number (format : NumberFormat) : (number format).Onward silent start :=
  .position_bind fun _ hn => .bind (.withDefault (.token _ _) _) fun _ =>
    .map _ (.bind (.mapFailure (Onward.magnitude format) fun _ _ _ => hn) fun _ => .succeed _)

theorem Onward.decoded (read : Reader) (pattern : String) (meaning : Text → Option Text) :
    (decoded read pattern meaning).Onward silent start := by
  intro env n hn
  have htoken : (Parser.token read ("Does not match pattern " ++ pattern)).Onward silent start :=
    .token _ _
  refine .bindOnward (htoken env n hn) (fun env' stop text hstop => ?_)
    fun _ _ habout => .pure habout
  simp only []
  split
  · exact .pure hstop
  · exact .pure hn

theorem Onward.fragment (quote : Char) (escape : Escape) (format : StringFormat) :
    (fragment quote escape format).Onward silent start :=
  fragment_induction .orElse (fun _ => Onward.decoded _ _ _) (Onward.decoded _ _ _)
    (.map _ (.token _ _))

theorem Onward.quotedWith (quote : Char) (escape : Escape) (format : StringFormat)
    (message : String) : (quotedWith quote escape format message).Onward silent start := by
  have hquote : (Parser.string (String.singleton quote)).Onward silent start := .token _ _
  have hfragments : ((Literal.fragment quote escape format).foldMany (fun a b => a ++ b)
      []).Onward silent start :=
    .withDefault (.foldMany1 (Onward.fragment quote escape format) _) _
  exact .mapMessage (.map _ (.seqRight hquote (.inEnv (.seqLeft hfragments hquote) _))) _

end Literal

/-- **The text of a real number has a value**, so that the number never fails after
its text was found. -/
theorem Parser.Onward.realWith (message : String) {silent : Prop} {start : Nat} :
    (Parser.realWith message).Onward silent start := by
  intro env n hn
  -- what the token hands over is the text of a literal
  have htoken : ((Parser.token Reader.real message).run env n).Ensures fun reply =>
      reply.Onward silent start ∧ ∀ env' stop text, reply = .ok env' stop text →
        ∃ x, Decimal.value? text.toList = some x := by
    refine .bind (env.skipFrom_onward n) fun next hnext => ?_
    cases hm : (env.from? next).bind Reader.real with
    | none => exact .pure ⟨hn, fun _ _ _ h => absurd h (by simp)⟩
    | some m =>
      refine .pure ⟨Nat.le_trans hn (Nat.le_trans hnext (Nat.le_add_right _ _)), ?_⟩
      rintro env' stop text ⟨⟩
      obtain ⟨rest, -, hread⟩ := Option.bind_eq_some_iff.mp hm
      obtain ⟨s, hs, rfl⟩ := Option.map_eq_some_iff.mp hread
      rw [String.toList_ofList]
      exact Decimal.value?_isSome (Decimal.isReal_of_spelling? hs)
  refine .bind htoken fun reply hreply => ?_
  cases reply with
  | fail message about => exact .pure hreply.1
  | ok env' stop text =>
    obtain ⟨x, hx⟩ := hreply.2 env' stop text rfl
    simp only [hx]
    exact .pure hreply.1

/-- The primitives that move onward: all but moves, and failures where they may not be
silent. -/
def Primitive.NoJumps (silent : Prop) {α : Type} : Primitive α → Prop
  | .fail _ => silent
  | .moveTo _ => False
  | _ => True

theorem Primitive.onward {silent : Prop} {α : Type} (p : Primitive α) (hp : p.NoJumps silent)
    (start : Nat) : p.parser.Onward silent start := by
  cases p with
  | string => exact .token _ _
  | ignoreCase => exact .token _ _
  | pattern text message p valid =>
    obtain ⟨program, rfl⟩ := Parser.exists_matching valid
    exact .token _ message
  | atEnd => exact .endWith _
  | real => exact .realWith _
  | key => exact .bounded (.token _ _) _
  | keyIgnoreCase => exact .bounded (.token _ _) _
  | number => exact Literal.Onward.number _
  | quoted => exact Literal.Onward.quotedWith _ _ _ _
  | javaIdentifier => exact .token _ _
  | succeed => exact .succeed _
  | fail => exact .fail hp _
  | position => exact .position
  | moveTo => exact hp.elim

/-! ## Whatever is built -/

namespace Construction

/-- **Nothing in the construction jumps**: it moves to no position, runs nothing that
is written by hand and tells no failure to be about another position. Environments
may be changed at will, anything may stand below a negative lookahead and over another
text, and anything may be a delimiter. -/
def NoJumps (silent : Prop) {V : Type} {Γ : V → Type} {α : Type} : Construction Γ α → Prop
  | handle _ => True
  | primitive p => p.NoJumps silent
  | own _ => False
  | unbuilt _ => True
  | map _ p => p.NoJumps silent
  | bind p k => p.NoJumps silent ∧ ∀ a, (k a).NoJumps silent
  | bindMap p k _ => p.NoJumps silent ∧ ∀ a, (k a).NoJumps silent
  | seqRight p q => p.NoJumps silent ∧ q.NoJumps silent
  | seqLeft p q => p.NoJumps silent ∧ q.NoJumps silent
  | choice ps => ∀ i, (ps i).NoJumps silent
  | orElse p q => p.NoJumps silent ∧ q.NoJumps silent
  | withDefault p _ => p.NoJumps silent
  | optional p => p.NoJumps silent
  | lookahead p => p.NoJumps silent
  | notAhead _ => True
  | filter p _ => p.NoJumps silent
  | mapMessage p _ => p.NoJumps silent
  | mapMessageAt _ _ _ => False
  | withMessage p _ => p.NoJumps silent
  | foldSep item _ _ => item.NoJumps silent
  | foldSepRight item _ _ => item.NoJumps silent
  | foldMany1 item _ => item.NoJumps silent
  | foldMany item _ _ => item.NoJumps silent
  | inEnv p _ _ => p.NoJumps silent
  | onText _ _ => True
  | fresh build => ∀ scope, (build scope).NoJumps silent
  | recursive _ _ rules _ => ∀ i, (rules i).NoJumps silent

/-- **Whatever is built without jumps moves onward.** -/
theorem onward {silent : Prop} {V : Type} {Γ : V → Type} {α : Type} (c : Construction Γ α)
    (hc : c.NoJumps silent) {start : Nat} {handles : Parsers Γ}
    (hh : ∀ v, (handles v).Onward silent start) : (c.parser handles).Onward silent start := by
  induction c with
  | handle v => exact hh v
  | primitive p => exact p.onward hc start
  | own p => exact hc.elim
  | unbuilt cause => exact .fresh fun _ _ h => absurd h (by simp)
  | map f p ih => exact .map f (ih hc hh)
  | bind p k ihp ihk => exact .bind (ihp hc.1 hh) fun a => ihk a (hc.2 a) hh
  | bindMap p k f ihp ihk => exact .bindMap f (ihp hc.1 hh) fun a => ihk a (hc.2 a) hh
  | seqRight p q ihp ihq => exact .seqRight (ihp hc.1 hh) (ihq hc.2 hh)
  | seqLeft p q ihp ihq => exact .seqLeft (ihp hc.1 hh) (ihq hc.2 hh)
  | choice ps ih =>
    refine .choice fun p hp => ?_
    obtain ⟨i, rfl⟩ := List.mem_ofFn.mp hp
    exact ih i (hc i) hh
  | orElse p q ihp ihq => exact .orElse (ihp hc.1 hh) (ihq hc.2 hh)
  | withDefault p default ih => exact .withDefault (ih hc hh) default
  | optional p ih => exact .optional (ih hc hh)
  | lookahead p ih => exact .lookahead (ih hc hh)
  | notAhead p => exact .notAhead _
  | filter p accept ih => exact .filter (ih hc hh) accept
  | mapMessage p f ih => exact .mapMessage (ih hc hh) f
  | mapMessageAt p f g => exact hc.elim
  | withMessage p message ih => exact .mapMessage (ih hc hh) _
  | foldSep item delimiter f ihi => exact .foldSep (ihi hc hh) _ f
  | foldSepRight item delimiter f ihi => exact .foldSepRight (ihi hc hh) _ f
  | foldMany1 item f ih => exact .foldMany1 (ih hc hh) f
  | foldMany item f default ih => exact .withDefault (.foldMany1 (ih hc hh) f) default
  | inEnv p scanners change ihp => exact .inEnvM (ihp hc hh) _
  | onText p subject => exact .onText _ _
  | fresh build ih =>
    exact .fresh fun scope p hp => Except.ok.inj hp ▸ ih scope (hc scope) hh
  | recursive name order rules i ih =>
    refine .entry (fun inner hinner i p hp => Except.ok.inj hp ▸ ih i (hc i) fun v => ?_) i
    -- a handle of a rule is one of its surroundings, or one of the grammar
    cases v with
    | inl v => exact hh v
    | inr j => exact hinner j

/-- **A run reports nothing before the place of its call.** In any environment, with
whatever it skips, a grammar without jumps ends where it was called or beyond, and
is told to have failed there or beyond; and if `Parser.fail` does not occur in it,
every failure is about a position. -/
theorem reports_onward {α : Type} (c : Closed α) (hc : c.NoJumps True) (env : Env)
    (n : Nat) {budget : Nat} {k k' : Knots} {reply : Reply α} {log : List Event}
    (hdone : c.toParser.run env n budget k = .done reply log k') :
    (∀ env' stop a, reply = .ok env' stop a → n ≤ stop)
    ∧ (∀ message about, reply = .fail message (some about) → n ≤ about)
    ∧ (c.NoJumps False → ∀ message, reply ≠ .fail message none) := by
  have honward : reply.Onward True n :=
    c.onward hc (fun v => v.elim) env n (Nat.le_refl n) hdone
  refine ⟨?_, ?_, ?_⟩
  · rintro env' stop a rfl
    exact honward
  · rintro message about rfl
    exact honward
  · rintro hspeaks message rfl
    exact c.onward hspeaks (fun v => v.elim) env n (Nat.le_refl n) hdone

/-- A number, and then numbers. -/
def moreNumbers : Construction (Sum.elim Empty.elim fun _ : Unit => Int) Int :=
  .seqRight (.primitive (.number .decimal)) (.handle (Sum.inr ()))

/-- Numbers without an end: the failure is the one of the number that is missing. -/
def numbers : Closed Int := .recursive ⟨0, []⟩ [()] (fun _ => moreNumbers) ()

/-- What is skipped would move back over the number that was read. The sign without
a number stands behind both, and the failure is about it. -/
theorem reports_onward_signed :
    let env : Env := ⟨['x', '7', '-'], some fun _ n => pure (some (n - 1)), none⟩
    numbers.NoJumps False
    ∧ ∃ message about log k',
        numbers.toParser.run env 1 4 .initial = .done (.fail message (some about)) log k'
        ∧ about = 2 ∧ 1 ≤ about := by
  intro env
  have hspeaks : numbers.NoJumps False := fun _ => ⟨trivial, trivial⟩
  have hc : numbers.NoJumps True := fun _ => ⟨trivial, trivial⟩
  have hrun : ∃ message log k',
      numbers.toParser.run env 1 4 .initial = .done (.fail message (some 2)) log k' :=
    ⟨_, _, _, rfl⟩
  obtain ⟨message, log, k', hdone⟩ := hrun
  exact ⟨hspeaks, message, 2, log, k', hdone, rfl,
    (numbers.reports_onward hc env 1 hdone).2.1 message 2 rfl⟩

end Construction

end Descent
