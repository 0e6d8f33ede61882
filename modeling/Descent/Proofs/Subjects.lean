import Descent.Proofs.Following
import Descent.Proofs.Safety
import Mathlib.Data.Set.Insert

/-!
# Positions and the texts they belong to

A position says nothing without the text it is a position of. A parser that runs in an
environment over another text finds positions of that one, and a change of environment
(`Parser.inEnv`) hands them on as positions of the text that it was called on; nobody
looks whether there are such. Only a change of the text itself (`Parser.onText`) forgets
what was found there.

**Which positions are handed on.** `Parser.StaysIn` answers for a whole grammar at once:
if its subject is one of some texts, and no function puts in another than these, all
positions it ends at are positions of one of the texts. Which of them cannot be told,
but it does not matter where all of the texts have the same positions, or the subject
has those of all the others. And that is the exact condition
(`Construction.inEnv_isBoundary_iff`): a text with a position that the subject does not
have can be put in, and a parser can end there.

**What may be skipped.** What is skipped leads from positions to positions, and what may
follow a keyword leads nowhere, so that one may be of any kind. It is different where a
function may put the one in the place of the other; `swaps` says whether any does.
-/

namespace Descent

/-- The positions of an initial segment are positions of the whole text. -/
theorem Text.IsBoundary.of_isPrefix {n : Nat} {t cs : Text} (h : IsBoundary n t) (ht : t <+: cs) :
    IsBoundary n cs := by
  obtain ⟨a, rest, rfl, rfl⟩ := isBoundary_iff.mp h
  obtain ⟨more, rfl⟩ := ht
  exact isBoundary_iff.mpr ⟨a, rest ++ more, List.append_assoc _ _ _, rfl⟩

/-- The offset is a position of one of the texts. -/
def Text.PositionIn (S : Set Text) (n : Nat) : Prop := ∃ t ∈ S, Text.IsBoundary n t

/-- Over texts of a set, the scan leads from positions in it to positions in it. -/
def Scan.StaysIn (S : Set Text) (scan : Scan) : Prop :=
  ∀ ⦃subject n⦄, subject ∈ S → Text.PositionIn S n →
    (scan subject n).Ensures fun stop => ∀ m, stop = some m → Text.PositionIn S m

/-- The scan is what is skipped, or it may be put in the place of that. -/
def Env.Offers (swaps : Prop) (env : Env) (scan : Scan) : Prop :=
  env.skip = some scan ∨ swaps ∧ env.follow = some scan

/-- **The environment stays within some texts**: its subject is one of them, and so are
those that may be put in its place. What is skipped stays in every such set. -/
structure Env.Within (swaps : Prop) (others S : Set Text) (env : Env) : Prop where
  included : others ⊆ S
  subject : env.subject ∈ S
  scans : ∀ scan, env.Offers swaps scan → ∀ S', others ⊆ S' → scan.StaysIn S'

/-- A success stays within some texts. Nothing is said of failures. -/
def Reply.StaysIn {α : Type} (swaps : Prop) (others S : Set Text) : Reply α → Prop
  | .ok env stop _ => env.Within swaps others S ∧ Text.PositionIn S stop
  | .fail .. => True

variable {swaps : Prop} {others S : Set Text}

/-- In a bare environment nothing is skipped. -/
theorem Env.Within.new (h : others ⊆ S) {subject : Text} (hsubject : subject ∈ S) :
    (Env.new subject).Within swaps others S where
  included := h
  subject := hsubject
  scans := by
    rintro scan (hscan | ⟨-, hscan⟩) <;> exact absurd hscan (by simp [Env.new])

/-- **Skipping stays in the positions.** -/
theorem Env.Within.skipFrom {env : Env} (henv : env.Within swaps others S) {n : Nat}
    (hn : Text.PositionIn S n) : (env.skipFrom n).Ensures (Text.PositionIn S) := by
  unfold Env.skipFrom
  cases hskip : env.skip with
  | none => exact .pure hn
  | some scan =>
    refine .bind (henv.scans scan (.inl hskip) S henv.included henv.subject hn) fun stop hstop => ?_
    cases stop with
    | none => exact .pure hn
    | some m =>
      refine .pure ?_
      split
      · exact hstop m rfl
      · exact hn

/-- **What is done with a reply** that stays within the texts. -/
theorem Eval.Ensures.bindStaying {α β : Type} {x : Eval (Reply α)} {f : Reply α → Eval β}
    {Q : β → Prop} (hx : x.Ensures (Reply.StaysIn swaps others S))
    (hok : ∀ env stop a, env.Within swaps others S → Text.PositionIn S stop →
      (f (.ok env stop a)).Ensures Q)
    (hfail : ∀ message about, (f (.fail message about)).Ensures Q) : (x >>= f).Ensures Q := by
  refine .bind hx fun reply hreply => ?_
  cases reply with
  | ok env stop a => exact hok env stop a hreply.1 hreply.2
  | fail message about => exact hfail message about

namespace Parser

variable {α β γ δ : Type}

/-- **The parser stays in the positions of some texts**, called at one of them on one of
the texts. -/
def StaysIn (swaps : Prop) (others S : Set Text) (p : Parser α) : Prop :=
  ∀ ⦃env n⦄, env.Within swaps others S → Text.PositionIn S n →
    (p.run env n).Ensures (Reply.StaysIn swaps others S)

namespace StaysIn

/-! ## Parsers that are not made of others -/

theorem succeed (a : α) : (Parser.succeed a).StaysIn swaps others S :=
  fun _ _ henv hn => .pure ⟨henv, hn⟩

theorem fail (message : String) : (Parser.fail message : Parser α).StaysIn swaps others S :=
  fun _ _ _ _ => .pure trivial

theorem position : Parser.position.StaysIn swaps others S :=
  fun _ _ henv hn => .pure ⟨henv, hn⟩

/-- A move is checked against the subject, and so the position is one. -/
theorem moveTo (target : Nat) : (Parser.moveTo target).StaysIn swaps others S := by
  intro env n henv hn
  unfold Parser.moveTo
  simp only []
  split
  · next h => exact .pure ⟨henv, env.subject, henv.subject, h⟩
  · exact .pure trivial

/-- **A token ends at a position of the subject**, wherever it was called. -/
theorem token {read : Reader} (hread : read.Sound) (message : String) :
    (Parser.token read message).StaysIn swaps others S := by
  intro env n henv hn
  refine .bind_any fun start => ?_
  cases hm : (env.from? start).bind read with
  | none => exact .pure trivial
  | some m => exact .pure ⟨henv, env.subject, henv.subject, hread.isBoundary hm⟩

theorem endWith (message : String) : (Parser.endWith message).StaysIn swaps others S := by
  intro env n henv hn
  refine .bind (henv.skipFrom hn) fun start hstart => ?_
  split
  · exact .pure ⟨henv, hstart⟩
  · exact .pure trivial

theorem bounded {p : Parser String} (hp : p.StaysIn swaps others S) (message : String) :
    (p.bounded message).StaysIn swaps others S := by
  intro env n henv hn
  refine .bindStaying (hp henv hn) (fun env' stop a henv' hstop => .bind_any fun may => ?_)
    fun _ _ => .pure trivial
  split
  · exact .pure ⟨henv', hstop⟩
  · exact .bind_any fun _ => .pure trivial

/-! ## Sequences -/

theorem bind {p : Parser α} {f : α → Parser β} (hp : p.StaysIn swaps others S)
    (hf : ∀ a, (f a).StaysIn swaps others S) : (p.bind f).StaysIn swaps others S :=
  fun _ _ henv hn => .bindStaying (hp henv hn) (fun _ _ a henv' hstop => hf a henv' hstop)
    fun _ _ => .pure trivial

theorem map {p : Parser α} (f : α → β) (hp : p.StaysIn swaps others S) :
    (p.map f).StaysIn swaps others S := by
  rw [map_eq_bind]
  exact hp.bind fun a => succeed (f a)

theorem bindMap {p : Parser α} {k : α → Parser β} (f : α → β → γ)
    (hp : p.StaysIn swaps others S) (hk : ∀ a, (k a).StaysIn swaps others S) :
    (p.bindMap k f).StaysIn swaps others S := by
  rw [bindMap_eq_bind]
  exact hp.bind fun a => (hk a).map (f a)

theorem seqRight {p : Parser α} {q : Parser β} (hp : p.StaysIn swaps others S)
    (hq : q.StaysIn swaps others S) : (p.seqRight q).StaysIn swaps others S :=
  hp.bind fun _ => hq

theorem seqLeft {p : Parser α} {q : Parser β} (hp : p.StaysIn swaps others S)
    (hq : q.StaysIn swaps others S) : (p.seqLeft q).StaysIn swaps others S := by
  rw [seqLeft_eq_bind]
  exact hp.bind fun a => hq.map fun _ => a

/-! ## Parsers that go back -/

theorem firstOf {ps : List (Parser α)} (hps : ∀ p ∈ ps, p.StaysIn swaps others S) {env : Env}
    {n : Nat} (henv : env.Within swaps others S) (hn : Text.PositionIn S n) (index : Nat)
    (message : String) (about : Option Nat) :
    (Parser.firstOf index (.fail message about) ps env n).Ensures
      (Reply.StaysIn swaps others S) := by
  induction ps generalizing index message about with
  | nil => exact .pure trivial
  | cons p ps ih =>
    refine .bindStaying (hps p List.mem_cons_self henv hn)
      (fun _ _ _ henv' hstop => .pure ⟨henv', hstop⟩) fun message about => .bind_any fun _ => ?_
    exact ih (fun q hq => hps q (List.mem_cons_of_mem p hq)) (index + 1) message about

theorem choice {ps : List (Parser α)} (hps : ∀ p ∈ ps, p.StaysIn swaps others S) :
    (Parser.choice ps).StaysIn swaps others S :=
  fun _ _ henv hn => firstOf hps henv hn 0 _ _

theorem orElse {p q : Parser α} (hp : p.StaysIn swaps others S)
    (hq : q.StaysIn swaps others S) : (p.orElse q).StaysIn swaps others S :=
  fun _ _ henv hn => .bindStaying (hp henv hn) (fun _ _ _ henv' hstop => .pure ⟨henv', hstop⟩)
    fun _ _ => .bind_any fun _ => hq henv hn

theorem withDefault {p : Parser α} (hp : p.StaysIn swaps others S) (default : α) :
    (p.withDefault default).StaysIn swaps others S :=
  fun _ _ henv hn => .bindStaying (hp henv hn) (fun _ _ _ henv' hstop => .pure ⟨henv', hstop⟩)
    fun _ _ => .pure ⟨henv, hn⟩

theorem optional {p : Parser α} (hp : p.StaysIn swaps others S) :
    p.optional.StaysIn swaps others S :=
  (hp.map some).withDefault none

theorem lookahead {p : Parser α} (hp : p.StaysIn swaps others S) :
    p.lookahead.StaysIn swaps others S :=
  fun _ _ henv hn => .bindStaying (hp henv hn) (fun _ _ _ henv' _ => .pure ⟨henv', hn⟩)
    fun _ _ => .pure trivial

/-- A negative lookahead replies where it was called, whatever is below it. -/
theorem notAhead (p : Parser α) : p.notAhead.StaysIn swaps others S := by
  intro env n henv hn
  refine .bind_any fun reply => ?_
  cases reply with
  | ok env' stop a => exact .pure trivial
  | fail message about => exact .pure ⟨henv, hn⟩

theorem filter {p : Parser α} (hp : p.StaysIn swaps others S) (accept : α → Bool) :
    (p.filter accept).StaysIn swaps others S := by
  intro env n henv hn
  refine .bindStaying (hp henv hn) (fun env' stop a henv' hstop => ?_) fun _ _ => .pure trivial
  simp only []
  split
  · exact .pure ⟨henv', hstop⟩
  · exact .pure trivial

/-- Failures may be changed at will. -/
theorem mapFailure {p : Parser α} (hp : p.StaysIn swaps others S)
    (f : String → Option Nat → String × Option Nat) :
    (p.mapFailure f).StaysIn swaps others S := by
  intro env n henv hn
  refine .bindStaying (hp henv hn) (fun _ _ _ henv' hstop => .pure ⟨henv', hstop⟩)
    fun message about => ?_
  show (if (f message about).1.isEmpty then Eval.stop .emptyMessage
    else Pure.pure (Reply.fail (f message about).1 (f message about).2)).Ensures _
  split
  · exact .stop _
  · exact .pure trivial

theorem mapMessage {p : Parser α} (hp : p.StaysIn swaps others S) (f : String → String) :
    (p.mapMessage f).StaysIn swaps others S :=
  hp.mapFailure _

theorem mapMessageAt {p : Parser α} (hp : p.StaysIn swaps others S) (f : String → String)
    (g : Option Nat → Nat) : (p.mapMessageAt f g).StaysIn swaps others S :=
  hp.mapFailure _

/-! ## Repetition -/

theorem round {item : Parser α} {delimiter : Parser δ} (hitem : item.StaysIn swaps others S)
    (hdelimiter : delimiter.StaysIn swaps others S) {env : Env} {n : Nat}
    (henv : env.Within swaps others S) (hn : Text.PositionIn S n) :
    (Parser.round item delimiter env n).Ensures fun r => ∀ r', r = some r' →
      r'.env.Within swaps others S ∧ Text.PositionIn S r'.stop := by
  refine .bindStaying (hdelimiter henv hn) (fun env₁ middle d henv₁ hmiddle => ?_)
    fun _ _ => .bind_any fun _ => .pure (by simp)
  refine .bindStaying (hitem henv₁ hmiddle) (fun env₂ stop a henv₂ hstop => ?_)
    fun _ _ => .bind_any fun _ => .pure (by simp)
  simp only []
  split
  · exact .pure fun r' hr' => Option.some.inj hr' ▸ ⟨henv₂, hstop⟩
  · exact .bind_any fun _ => .pure (by simp)

/-- The chain of rounds ends at a position. The induction is on the rounds that are
allowed. -/
theorem rounds {item : Parser α} {delimiter : Parser δ} (hitem : item.StaysIn swaps others S)
    (hdelimiter : delimiter.StaysIn swaps others S) (left : Nat) {env : Env} {n : Nat}
    (henv : env.Within swaps others S) (hn : Text.PositionIn S n) :
    (Parser.rounds item delimiter left env n).Ensures fun chain =>
      ∀ a, (Round.reply env n chain a).StaysIn swaps others S := by
  induction left generalizing env n with
  | zero =>
    unfold Parser.rounds
    exact .bind_any fun r => by cases r <;> exact .pure fun _ => ⟨henv, hn⟩
  | succ left ih =>
    unfold Parser.rounds
    refine .bind (round hitem hdelimiter henv hn) fun r hr => ?_
    cases r with
    | none => exact .pure fun _ => ⟨henv, hn⟩
    | some r =>
      obtain ⟨henv', hstop⟩ := hr r rfl
      exact .bind (ih henv' hstop) fun chain hchain => .pure hchain

theorem repetition {item : Parser α} {delimiter : Parser δ}
    (hitem : item.StaysIn swaps others S) (hdelimiter : delimiter.StaysIn swaps others S)
    (value : α → List (Round δ α) → α) :
    (Parser.repetition item delimiter value).StaysIn swaps others S :=
  fun _ _ henv hn => .bindStaying (hitem henv hn)
    (fun _ _ _ henv' hstop => .bind (rounds hitem hdelimiter _ henv' hstop)
      fun _ hchain => .pure (hchain _))
    fun _ _ => .pure trivial

theorem foldSep {item : Parser α} {delimiter : Parser δ} (hitem : item.StaysIn swaps others S)
    (hdelimiter : delimiter.StaysIn swaps others S) (f : α → δ → α → α) :
    (item.foldSep delimiter f).StaysIn swaps others S := by
  rw [foldSep_eq_repetition]
  exact hitem.repetition hdelimiter _

theorem foldSepRight {item : Parser α} {delimiter : Parser δ}
    (hitem : item.StaysIn swaps others S) (hdelimiter : delimiter.StaysIn swaps others S)
    (f : α → δ → α → α) : (item.foldSepRight delimiter f).StaysIn swaps others S := by
  rw [foldSepRight_eq_repetition]
  exact hitem.repetition hdelimiter _

theorem foldMany1 {item : Parser α} (hitem : item.StaysIn swaps others S) (f : α → α → α) :
    (item.foldMany1 f).StaysIn swaps others S :=
  hitem.foldSep (token (.exact _) _) _

/-! ## Other environments, other texts and recursive grammars -/

/-- **A position of the other environment is handed on as one of this**, which stays
within the texts if the other one does. -/
theorem inEnvM {p : Parser α} {change : Env → Eval Env} (hp : p.StaysIn swaps others S)
    (hchange : ∀ env : Env, env.Within swaps others S →
      (change env).Ensures fun env' => env'.Within swaps others S) :
    (p.inEnvM change).StaysIn swaps others S :=
  fun env _ henv hn => .bind (hchange env henv) fun _ henv' =>
    .bindStaying (hp henv' hn) (fun _ _ _ _ hstop => .pure ⟨henv, hstop⟩) fun _ _ => .pure trivial

theorem inEnv {p : Parser α} {change : Env → Env} (hp : p.StaysIn swaps others S)
    (hchange : ∀ env : Env, env.Within swaps others S → (change env).Within swaps others S) :
    (p.inEnv change).StaysIn swaps others S := by
  rw [Construction.inEnv_eq_inEnvM]
  exact hp.inEnvM fun env henv => .pure (hchange env henv)

/-- **Over another text no position is handed on**, whatever is found there. -/
theorem onText (p : Parser α) (subject : Text) : (p.onText subject).StaysIn swaps others S := by
  intro env n henv hn
  refine .bind_any fun reply => ?_
  cases reply with
  | ok env' stop a => exact .pure ⟨henv, hn⟩
  | fail message about => exact .pure trivial

theorem fresh {build : Nat → Except Fault (Parser α)}
    (hbuild : ∀ scope p, build scope = .ok p → p.StaysIn swaps others S) :
    (Parser.fresh build).StaysIn swaps others S := by
  intro env n henv hn
  refine .bind_any fun scope => .bind (.ofExcept fun p hp => hbuild scope p hp) fun p hp => ?_
  exact .bind (hp henv hn) fun reply hreply => .bind_any fun _ => .pure hreply

/-- **A recursive grammar stays in the positions if its rules do**, given handles that
do. The induction is on the calls that are left. -/
theorem entry {ι : Type} {τ : ι → Type} {grammar : Knot τ}
    (hrules : ∀ handles : Parsers τ, (∀ j S, (handles j).StaysIn swaps others S) →
      ∀ i p, grammar.rule i handles = .ok p → ∀ S, p.StaysIn swaps others S)
    (i : ι) (S : Set Text) : (grammar.entry i).StaysIn swaps others S := by
  have hcall : ∀ budget i S,
      (⟨grammar.call budget i⟩ : Parser (τ i)).StaysIn swaps others S := by
    intro budget
    induction budget with
    | zero => exact fun _ _ _ _ _ _ => .giveUp
    | succ budget ih =>
      intro i S env n henv hn
      refine .bind_any fun _ => .bind (.ofExcept (hrules _ (fun j S env n henv hn => ?_) i))
        fun p hp => .withBudget (hp S henv hn)
      exact .bind_any fun _ => ih j S henv hn
  exact fun env n henv hn => .bind_any fun budget => hcall budget i S henv hn

end StaysIn

/-- The scan of a parser that stays in the positions. -/
theorem StaysIn.scan {p : Parser α} (hp : p.StaysIn swaps others S) (h : others ⊆ S) :
    p.scan.StaysIn S := by
  intro subject n hsubject hn
  refine .bindStaying (hp (.new h hsubject) hn) (fun _ _ _ _ hstop => .pure ?_)
    fun _ _ => .pure (by simp)
  exact fun m hm => Option.some.inj hm ▸ hstop

end Parser

/-! ## Literals and other primitives -/

namespace Literal

open Descent.Parser

theorem StaysIn.digits (pattern : String) (accept : Char → Bool) (base : Nat) :
    (digits pattern accept base).StaysIn swaps others S := by
  refine .bind (.token (.run1 accept) _) fun text => ?_
  show Parser.StaysIn swaps others S (if _ then _ else _)
  split
  · exact .succeed _
  · exact .fail _

theorem StaysIn.number (format : NumberFormat) : (number format).StaysIn swaps others S := by
  have hmarked : ∀ {marker : String} {p : Parser Nat}, p.StaysIn swaps others S →
      ((Parser.string marker).seqRight p).StaysIn swaps others S :=
    fun hp => .seqRight (.token (.exact _) _) hp
  have hmagnitude : (magnitude format).StaysIn swaps others S :=
    magnitude_induction .orElse (hmarked (StaysIn.digits ..)) (hmarked (StaysIn.digits ..))
      (hmarked (StaysIn.digits ..)) (StaysIn.digits ..) format
  exact .bind .position fun _ => .bind (.withDefault (.token (.exact _) _) _) fun _ =>
    .map _ (.bind (.mapMessageAt hmagnitude _ _) fun _ => .succeed _)

theorem StaysIn.decoded {read : Reader} (hread : read.Sound) (pattern : String)
    (meaning : Text → Option Text) : (decoded read pattern meaning).StaysIn swaps others S := by
  intro env n henv hn
  have htoken : (Parser.token read ("Does not match pattern " ++ pattern)).StaysIn swaps others S :=
    .token hread _
  refine .bindStaying (htoken henv hn) (fun env' stop text henv' hstop => ?_)
    fun _ _ => .pure trivial
  simp only []
  split
  · exact .pure ⟨henv', hstop⟩
  · exact .pure trivial

theorem StaysIn.quotedWith (quote : Char) (escape : Escape) (format : StringFormat)
    (message : String) : (quotedWith quote escape format message).StaysIn swaps others S := by
  have hquote : (Parser.string (String.singleton quote)).StaysIn swaps others S :=
    .token (.exact _) _
  have hfragment : (fragment quote escape format).StaysIn swaps others S :=
    fragment_induction .orElse (fun form => StaysIn.decoded (.codeForm form) _ _)
      (StaysIn.decoded .pairReader _ _) (.map _ (.token (.run1 _) _))
  have hbody := ((hfragment.foldMany1 fun a b => a ++ b).withDefault []).seqLeft hquote
  refine .mapMessage (.map _ (.seqRight hquote (.inEnv hbody fun env henv => ?_))) _
  exact ⟨henv.included, henv.subject, fun scan hscan => henv.scans scan
    (hscan.imp (fun h => absurd h (by simp [Env.withoutSkip, Env.withSkip])) id)⟩

end Literal

/-- **Every primitive stays in the positions.** -/
theorem Primitive.staysIn {α : Type} (p : Primitive α) : p.parser.StaysIn swaps others S := by
  cases p with
  | string => exact .token (.exact _) _
  | ignoreCase => exact .token (.sameLetters _) _
  | pattern text message p valid =>
    obtain ⟨program, rfl⟩ := Parser.exists_matching valid
    exact .token (.find? program) message
  | atEnd => exact .endWith _
  | real message =>
    refine .bind (.token .real message) fun text => ?_
    split
    · exact .succeed _
    · exact .fail _
  | key => exact .bounded (.token (.exact _) _) _
  | keyIgnoreCase => exact .bounded (.token (.sameLetters _) _) _
  | number => exact Literal.StaysIn.number _
  | quoted => exact Literal.StaysIn.quotedWith ..
  | javaIdentifier => exact .token .identifierReader _
  | succeed => exact .succeed _
  | fail => exact .fail _
  | position => exact .position
  | moveTo => exact .moveTo _

/-! ## Environments made of others -/

namespace Env

variable {J : Type} {scans : J → Scan} {env env₁ env₂ : Env}

/-- **An environment made of another one** by putting in one of some texts, or none. What
is skipped in it was there before or was given. -/
structure MadeBy (swaps : Prop) (others : Set Text) (scans : J → Scan) (env env₁ : Env) :
    Prop where
  subject : env₁.subject = env.subject ∨ env₁.subject ∈ others
  scans : ∀ scan, env₁.Offers swaps scan → env.Offers swaps scan ∨ ∃ j, scan = scans j

/-- It stays within the texts if what is given does. -/
theorem MadeBy.within (h : env.MadeBy swaps others scans env₁) (henv : env.Within swaps others S)
    (hscans : ∀ j S, others ⊆ S → (scans j).StaysIn S) : env₁.Within swaps others S where
  included := henv.included
  subject := h.subject.elim (fun heq => heq ▸ henv.subject) fun hmem => henv.included hmem
  scans := by
    intro scan hscan S' hS'
    obtain hscan | ⟨j, rfl⟩ := h.scans scan hscan
    · exact henv.scans scan hscan S' hS'
    · exact hscans j S' hS'

theorem MadeBy.refl (env : Env) : env.MadeBy swaps others scans env where
  subject := .inl rfl
  scans := fun _ hscan => .inl hscan

theorem MadeBy.trans (h : env.MadeBy swaps others scans env₁)
    (h₁ : env₁.MadeBy swaps others scans env₂) : env.MadeBy swaps others scans env₂ where
  subject := h₁.subject.elim (fun heq => heq ▸ h.subject) .inr
  scans := fun scan hscan => (h₁.scans scan hscan).elim (h.scans scan) .inr

/-- A step leaves the subject alone or puts in the text that it names. -/
theorem MadeBy.apply {step : Step J} (hstep : ∀ t, step = .withSubject t → t ∈ others) :
    env.MadeBy swaps others scans (step.apply scans env) := by
  have hgiven : ∀ {given : Option J} {scan : Scan}, given.map scans = some scan →
      ∃ j, scan = scans j := by
    intro given scan h
    obtain ⟨j, -, rfl⟩ := Option.map_eq_some_iff.mp h
    exact ⟨j, rfl⟩
  cases step with
  | withSubject t => exact ⟨.inr (hstep t rfl), fun scan hscan => .inl hscan⟩
  | adjust step =>
    refine ⟨.inl (by cases step <;> rfl), ?_⟩
    cases step with
    | withSkip skip => exact fun scan hscan => hscan.symm.imp .inr hgiven
    | withFollow follow => exact fun scan hscan => hscan.imp .inl fun h => hgiven h.2
    | withoutSkip =>
      refine fun scan hscan => .inl (.inr (hscan.resolve_left fun h => ?_))
      exact absurd h.symm (Option.some_ne_none scan)
    | bare => rintro scan (h | ⟨-, h⟩) <;> exact absurd h.symm (Option.some_ne_none scan)

/-- **Steps put in the texts that they name**, and no others. -/
theorem MadeBy.make {steps : List (Step J)}
    (hsteps : ∀ t, .withSubject t ∈ steps → t ∈ others) :
    env.MadeBy swaps others scans (env.make scans steps) := by
  induction steps generalizing env with
  | nil => exact .refl env
  | cons step steps ih =>
    have hstep : env.MadeBy swaps others scans (step.apply scans env) :=
      .apply fun t h => hsteps t (h ▸ List.mem_cons_self)
    exact hstep.trans (ih fun t h => hsteps t (List.mem_cons_of_mem step h))

end Env

/-! ## Everything that can be built -/

namespace Construction

/-- Whatever environment the function makes is made by putting in some texts. -/
def PutsIn (swaps : Prop) (others : Set Text) {J : Type}
    (change : (J → Scan) → Env → Eval Env) : Prop :=
  ∀ scans env, (change scans env).Ensures (env.MadeBy swaps others scans)

/-- No parser is written by hand, and no function puts in another text than some. -/
def Policy.putsIn (swaps : Prop) (others : Set Text) : Policy where
  change := PutsIn swaps others

/-- **Whatever is built stays in the positions** of the texts that occur. -/
theorem staysIn {V : Type} {Γ : V → Type} {α : Type} (c : Construction Γ α)
    (hc : c.Obeys (.putsIn swaps others)) {handles : Parsers Γ}
    (hh : ∀ v S, (handles v).StaysIn swaps others S) (S : Set Text) :
    (c.parser handles).StaysIn swaps others S := by
  induction c generalizing S with
  | handle v => exact hh v S
  | primitive p => exact p.staysIn
  | own p => exact hc.elim
  | unbuilt cause => exact .fresh fun _ _ h => absurd h (by simp)
  | map f p ih => exact .map f (ih hc hh S)
  | bind p k ihp ihk => exact .bind (ihp hc.1 hh S) fun a => ihk a (hc.2 a) hh S
  | bindMap p k f ihp ihk => exact .bindMap f (ihp hc.1 hh S) fun a => ihk a (hc.2 a) hh S
  | seqRight p q ihp ihq => exact .seqRight (ihp hc.1 hh S) (ihq hc.2 hh S)
  | seqLeft p q ihp ihq => exact .seqLeft (ihp hc.1 hh S) (ihq hc.2 hh S)
  | choice ps ih =>
    refine .choice fun p hp => ?_
    obtain ⟨i, rfl⟩ := List.mem_ofFn.mp hp
    exact ih i (hc i) hh S
  | orElse p q ihp ihq => exact .orElse (ihp hc.1 hh S) (ihq hc.2 hh S)
  | withDefault p default ih => exact .withDefault (ih hc hh S) default
  | optional p ih => exact .optional (ih hc hh S)
  | lookahead p ih => exact .lookahead (ih hc hh S)
  | notAhead p ih => exact .notAhead _
  | filter p accept ih => exact .filter (ih hc hh S) accept
  | mapMessage p f ih => exact .mapMessage (ih hc hh S) f
  | mapMessageAt p f g ih => exact .mapMessageAt (ih hc.2 hh S) f g
  | withMessage p message ih => exact .mapMessage (ih hc hh S) _
  | foldSep item delimiter f ihi ihd => exact .foldSep (ihi hc.1 hh S) (ihd hc.2 hh S) f
  | foldSepRight item delimiter f ihi ihd =>
    exact .foldSepRight (ihi hc.1 hh S) (ihd hc.2 hh S) f
  | foldMany1 item f ih => exact .foldMany1 (ih hc hh S) f
  | foldMany item f default ih => exact .withDefault (.foldMany1 (ih hc hh S) f) default
  | inEnv p scanners change ihp ihs =>
    refine .inEnvM (ihp hc.1 hh S) fun env henv => (hc.2.2 _ env).mono fun env' h => ?_
    exact h.within henv fun j S' hS' => (ihs j (hc.2.1 j) hh S').scan hS'
  | onText p other ih => exact .onText _ other
  | fresh build ih =>
    exact .fresh fun scope p hp => Except.ok.inj hp ▸ ih scope (hc scope) hh S
  | recursive name order rules i ih =>
    refine .entry (fun inner hinner i p hp => Except.ok.inj hp ▸ ih i (hc i) fun v => ?_) i S
    -- a handle of a rule is one of its surroundings, or one of the grammar
    cases v with
    | inl v => exact hh v
    | inr j => exact hinner j

/-- What is skipped stays in the positions if a construction skips it. -/
theorem Closed.scan_staysIn {α : Type} (c : Closed α) (hc : c.Obeys (.putsIn swaps others))
    {S : Set Text} (hS : others ⊆ S) : c.toParser.scan.StaysIn S :=
  (c.staysIn hc (fun v => v.elim) S).scan hS

/-- **When a position of another environment is one of this.** The parsers that the
library builds, run in environments that are made of this one by putting in some texts,
end at positions of its subject, wherever they are called at such a one, exactly if the
subject has all the positions that these texts have. So it is where no text is put in. A
text with another position can be put in, and then a parser ends there. What is skipped
has to lead from positions to positions, as everything does that is built by the library
(`Closed.scan_staysIn`). -/
theorem inEnv_isBoundary_iff {env : Env}
    (hskip : ∀ scan, env.Offers swaps scan → ∀ S, others ⊆ S → scan.StaysIn S) :
    (∀ t ∈ others, ∀ m, Text.IsBoundary m t → Text.IsBoundary m env.subject)
    ↔ ∀ (α J : Type) (σ : J → Type) (c : Closed α) (scanners : (j : J) → Closed (σ j))
        (steps : List (Env.Step J)), c.Obeys (.putsIn swaps others) →
        (∀ j, (scanners j).Obeys (.putsIn swaps others)) →
        (∀ t, .withSubject t ∈ steps → t ∈ others) →
        ∀ n, Text.IsBoundary n env.subject → ∀ budget k env' stop a log k',
        (c.toParser.inEnv (·.make (fun j => (scanners j).toParser.scan) steps)).run env n budget k
            = .done (.ok env' stop a) log k' →
        stop ≤ env'.length ∧ Text.IsBoundary stop env'.subject := by
  constructor
  · intro hothers α J σ c scanners steps hc hscanners hsteps n hn budget k env' stop a log k' hdone
    have hwithin : env.Within swaps others (insert env.subject others) :=
      ⟨Set.subset_insert _ _, Set.mem_insert _ _, hskip⟩
    have hstays : (c.toParser.inEnv (·.make (fun j => (scanners j).toParser.scan) steps)).StaysIn
        swaps others (insert env.subject others) :=
      .inEnv (c.staysIn hc (fun v => v.elim) _) fun env henv => (Env.MadeBy.make hsteps).within henv
        fun j S hS => (scanners j).scan_staysIn (hscanners j) hS
    obtain ⟨-, t, ht, hstop⟩ := hstays hwithin ⟨_, Set.mem_insert _ _, hn⟩ hdone
    obtain rfl : env' = env := Parser.KeepsEnv.inEnv _ _ env n hdone
    have hboundary : Text.IsBoundary stop env'.subject := by
      obtain rfl | ht := ht
      · exact hstop
      · exact hothers t ht stop hstop
    exact ⟨hboundary.le_size, hboundary⟩
  · intro h t ht m hm
    -- the move to the position ends there, and nothing else is needed
    have hmove : ((Closed.toParser (.primitive (.moveTo m))).inEnv
        (·.make (fun j : Empty => (j.elim : Closed Unit).toParser.scan) [.withSubject t])).run env 0
          0 .initial = .done (.ok env m ()) [] .initial := by
      have hrun : (Parser.moveTo m).run (env.withSubject t) 0
          = pure (.ok (env.withSubject t) m ()) := if_pos hm
      show (((Parser.moveTo m).run (env.withSubject t) 0) >>= fun reply =>
        pure (reply.rebase env) : Eval (Reply Unit)) 0 .initial = _
      rw [hrun]
      rfl
    refine (h Unit Empty (fun _ => Unit) (.primitive (.moveTo m)) (fun j => j.elim)
      [.withSubject t] trivial (fun j => j.elim) ?_ 0 ?_ 0 .initial env m () [] .initial hmove).2
    · intro t' ht'
      obtain rfl := Env.Step.withSubject.inj (List.mem_singleton.mp ht')
      exact ht
    · exact .of_from? (Text.from?_zero env.subject)

/-- A letter in the first part of a text, where blanks are skipped: the positions of an
initial segment are positions of the whole text. -/
theorem inEnv_isBoundary_iff_part :
    let blank : Closed String := .primitive (.string " " "no blank")
    let env : Env := ⟨[' ', 'é', 'a'], some blank.toParser.scan, none⟩
    let part : Text := [' ', 'é']
    (∀ scan, env.Offers False scan → ∀ S, {part} ⊆ S → scan.StaysIn S)
    ∧ (∀ t ∈ ({part} : Set Text), ∀ m, Text.IsBoundary m t → Text.IsBoundary m env.subject)
    ∧ ∃ log k', ((Parser.string "é").inEnv (·.make (fun _ : Unit => blank.toParser.scan)
        [.withSubject part])).run env 0 0 .initial = .done (.ok env 3 "é") log k'
      ∧ 3 ≤ env.length ∧ Text.IsBoundary 3 env.subject := by
  intro blank env part
  have hblank : blank.Obeys (.putsIn False {part}) := trivial
  have hskip : ∀ scan, env.Offers False scan → ∀ S, {part} ⊆ S → scan.StaysIn S := by
    rintro scan (hscan | ⟨h, -⟩) S hS
    · obtain rfl := Option.some.inj hscan
      exact blank.scan_staysIn hblank hS
    · exact h.elim
  have hpart : ∀ t ∈ ({part} : Set Text), ∀ m, Text.IsBoundary m t →
      Text.IsBoundary m env.subject := by
    rintro t rfl m hm
    exact hm.of_isPrefix ⟨['a'], rfl⟩
  have hsteps : ∀ t, Env.Step.withSubject t ∈ ([.withSubject part] : List (Env.Step Unit)) →
      t ∈ ({part} : Set Text) :=
    fun t ht => Env.Step.withSubject.inj (List.mem_singleton.mp ht)
  obtain ⟨log, k', hdone⟩ : ∃ log k', ((Parser.string "é").inEnv
      (·.make (fun _ : Unit => blank.toParser.scan) [.withSubject part])).run env 0 0 .initial
        = .done (.ok env 3 "é") log k' := ⟨_, _, rfl⟩
  have hpositions := (inEnv_isBoundary_iff hskip).mp hpart String Unit (fun _ => String)
    (.primitive (.string "é" "Does not match é")) (fun _ => blank) [.withSubject part] trivial
    (fun _ => hblank) hsteps 0 (.of_from? (Text.from?_zero env.subject)) 0 .initial
  exact ⟨hskip, hpart, log, k', hdone, hpositions env 3 "é" log k' hdone⟩

/-- **A position of another text is none of this**: two letters are read over another text
from the beginning of an empty one, which has no room for them. -/
theorem inEnv_beyond_subject :
    let env : Env := Env.new []
    Text.IsBoundary 0 env.subject
    ∧ ∃ env' stop a log k', ((Parser.string "ab").inEnv
        (·.make Empty.elim [.withSubject "ab".toList])).run env 0 0 .initial
          = .done (.ok env' stop a) log k'
      ∧ ¬(stop ≤ env'.length ∧ Text.IsBoundary stop env'.subject) :=
  ⟨rfl, _, 2, "ab", _, _, rfl, by decide⟩

end Construction

end Descent
