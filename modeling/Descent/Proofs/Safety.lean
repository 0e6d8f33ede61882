import Descent.Proofs.Boundary
import Descent.Proofs.Scoping
import Descent.Proofs.Tying

/-!
# Unchecked positions are harmless

A run checks where it starts, and nothing checks a position after that. What is
skipped may report any position, beyond the subject or inside a character, and
whoever calls a parser directly may call it anywhere. This module proves that
nothing comes of it: a grammar of the library never stops a run, and every
position in it stays a word of 64 bits (`Construction.run_harmless`).

**Safe evaluations.** `Eval.Safe` says that an evaluation does not end in a fault,
at any budget and from any state in which some scopes are alive. The scopes are
what a recursive grammar needs: its handles stop the run once its scope is closed.
A scope that is opened on the way stays alive for what is run in it, so what an
evaluation ensures is told of the scopes that are alive at its end, and a parser
is safe while more scopes are alive as well (`Parser.Safe`).

**Text matchers.** What reads text asks for the text at a position first, and there
is none beyond the end or inside a character. So a matcher that succeeds ends at
the end of what it read, whatever position it was sent to (`Primitive.endsInside`);
and the value of a number has room in a signed word, with either sign.
-/

namespace Descent

/-- **What is read ends inside the subject**, at the end of a character, wherever the
reader began. -/
theorem Reader.Sound.isBoundary {read : Reader} (hread : read.Sound) {env : Env} {start : Nat}
    {m : Match} (hm : (env.from? start).bind read = some m) :
    Text.IsBoundary (start + m.size) env.subject := by
  obtain ⟨rest, hrest, hmatch⟩ := Option.bind_eq_some_iff.mp hm
  show Text.IsBoundary (start + (Text.size m.passed + Text.size m.text)) env.subject
  rw [← Text.size_append]
  exact .add_size hrest (hread hmatch)

/-- No scope is alive that is yet to be opened. -/
def Knots.Sane (k : Knots) : Prop := ∀ scope ∈ k.live, scope < k.nextScope

/-! ## Evaluations that do not stop the run -/

/-- **The end of a run that was not stopped**: what is ensured holds where it ended,
and every scope that was alive still is. -/
def Outcome.Safe {α : Type} (live : List Nat) (P : List Nat → α → Prop) : Outcome α → Prop
  | .done a _ k => P k.live a ∧ k.Sane ∧ live ⊆ k.live
  | .fault .. => False
  | .exhausted => True

namespace Eval

variable {α β : Type} {alive : List Nat}

/-- **The evaluation does not stop the run** while the scopes are alive, and its value
satisfies a predicate, which may speak of the scopes that are alive in the end. -/
def Safe (alive : List Nat) (x : Eval α) (P : List Nat → α → Prop) : Prop :=
  ∀ (n : Nat) (k : Knots), k.Sane → alive ⊆ k.live → (x n k).Safe k.live P

namespace Safe

variable {x : Eval α} {f : α → Eval β} {P P' : List Nat → α → Prop} {Q : List Nat → β → Prop}

theorem pure {a : α} (h : ∀ live, alive ⊆ live → P live a) :
    (Pure.pure a : Eval α).Safe alive P :=
  fun _ k hk halive => ⟨h k.live halive, hk, List.Subset.refl _⟩

/-- **One evaluation after another.** The second begins where at least as much is
alive as where the first began. -/
theorem bind (hx : x.Safe alive P)
    (hf : ∀ live, alive ⊆ live → ∀ a, P live a → (f a).Safe live Q) :
    (x >>= f).Safe alive Q := by
  intro n k hk halive
  have hfirst := hx n k hk halive
  rw [bind_apply]
  cases hdone : x n k with
  | done a log k₁ =>
    rw [hdone] at hfirst
    obtain ⟨ha, hk₁, hlive⟩ := hfirst
    have hsecond := hf k₁.live (List.Subset.trans halive hlive) a ha n k₁ hk₁ (List.Subset.refl _)
    simp only []
    cases hdone₂ : f a n k₁ with
    | done b log₂ k₂ =>
      rw [hdone₂] at hsecond
      exact ⟨hsecond.1, hsecond.2.1, List.Subset.trans hlive hsecond.2.2⟩
    | fault cause log₂ k₂ => rw [hdone₂] at hsecond; exact hsecond
    | exhausted => trivial
  | fault cause log k₁ => rw [hdone] at hfirst; exact hfirst
  | exhausted => trivial

theorem mono (hx : x.Safe alive P) (h : ∀ live a, P live a → P' live a) : x.Safe alive P' := by
  intro n k hk halive
  have hend := hx n k hk halive
  cases hdone : x n k with
  | done a log k' => rw [hdone] at hend; exact ⟨h _ a hend.1, hend.2⟩
  | fault cause log k' => rw [hdone] at hend; exact hend
  | exhausted => trivial

theorem emit (e : Event) : (Eval.emit e).Safe alive fun _ _ => True :=
  fun _ _ hk _ => ⟨trivial, hk, List.Subset.refl _⟩

/-- An event in front changes nothing. -/
theorem emit_bind {y : Eval β} (e : Event) (hy : y.Safe alive Q) :
    (Eval.emit e >>= fun _ => y).Safe alive Q :=
  bind (emit e) fun _ halive _ _ => fun n k hk hlive => hy n k hk (List.Subset.trans halive hlive)

theorem giveUp : (Eval.giveUp : Eval α).Safe alive P := fun _ _ _ _ => trivial

theorem budget : Eval.budget.Safe alive fun _ _ => True :=
  fun _ _ hk _ => ⟨trivial, hk, List.Subset.refl _⟩

theorem withBudget {n : Nat} (hx : x.Safe alive P) : (Eval.withBudget n x).Safe alive P :=
  fun _ k hk halive => hx n k hk halive

end Safe

end Eval

/-! ## Scans, environments and replies -/

/-- **The scan is safe** on every text that has room, at every position; and it
reports positions, which may be any. -/
def Scan.Safe (alive : List Nat) (scan : Scan) : Prop :=
  ∀ ⦃live⦄, alive ⊆ live → ∀ ⦃subject n⦄, Text.size subject ≤ maxPosition → n ≤ maxPosition →
    (scan subject n).Safe live fun _ stop => ∀ m, stop = some m → m ≤ maxPosition

/-- The subject has room, and what is skipped and what may follow a keyword is safe. -/
def Env.Safe (alive : List Nat) (env : Env) : Prop :=
  env.length ≤ maxPosition
    ∧ ∀ scan, env.skip = some scan ∨ env.follow = some scan → scan.Safe alive

theorem Scan.Safe.mono {alive live : List Nat} {scan : Scan} (h : scan.Safe alive)
    (hlive : alive ⊆ live) : scan.Safe live :=
  fun _ hlive' => h (List.Subset.trans hlive hlive')

theorem Env.Safe.mono {alive live : List Nat} {env : Env} (h : env.Safe alive)
    (hlive : alive ⊆ live) : env.Safe live :=
  ⟨h.1, fun scan hscan => (h.2 scan hscan).mono hlive⟩

/-- Nothing is skipped in a bare environment. -/
theorem Env.Safe.new (alive : List Nat) {subject : Text} (h : Text.size subject ≤ maxPosition) :
    (Env.new subject).Safe alive := by
  refine ⟨h, ?_⟩
  rintro scan (hscan | hscan) <;> exact absurd hscan (by simp [Env.new])

/-- **The reply goes on in this environment, and its position is a word.** -/
def Reply.Words {α : Type} (env : Env) : Reply α → Prop
  | .ok env' stop _ => env' = env ∧ stop ≤ maxPosition
  | .fail _ about => ∀ m, about = some m → m ≤ maxPosition

theorem Reply.words_fail_here {α : Type} {env : Env} {n : Nat} (hn : n ≤ maxPosition)
    (message : String) : (Reply.fail message (some n) : Reply α).Words env :=
  fun _ h => Option.some.inj h ▸ hn

/-- **What is done with a reply** of words in a known environment. -/
theorem Eval.Safe.bindReply {α β : Type} {alive : List Nat} {env : Env} {x : Eval (Reply α)}
    {f : Reply α → Eval β} {Q : List Nat → β → Prop}
    (hx : x.Safe alive fun _ reply => reply.Words env)
    (hok : ∀ live, alive ⊆ live → ∀ stop a, stop ≤ maxPosition →
      (f (.ok env stop a)).Safe live Q)
    (hfail : ∀ live, alive ⊆ live → ∀ message about, (∀ m, about = some m → m ≤ maxPosition) →
      (f (.fail message about)).Safe live Q) : (x >>= f).Safe alive Q := by
  refine .bind hx fun live hlive reply hreply => ?_
  cases reply with
  | ok env' stop a => exact hreply.1 ▸ hok live hlive stop a hreply.2
  | fail message about => exact hfail live hlive message about hreply

/-- **Skipping is safe**, and ends at a word. -/
theorem Env.Safe.skipFrom {alive : List Nat} {env : Env} (henv : env.Safe alive) {n : Nat}
    (hn : n ≤ maxPosition) : (env.skipFrom n).Safe alive fun _ start => start ≤ maxPosition := by
  unfold Env.skipFrom
  cases hskip : env.skip with
  | none => exact .pure fun _ _ => hn
  | some scan =>
    have hscan := henv.2 scan (.inl hskip) (List.Subset.refl alive) henv.1 hn
    refine .bind hscan fun live hlive stop hstop => ?_
    cases stop with
    | none => exact .pure fun _ _ => hn
    | some m =>
      refine .pure fun _ _ => ?_
      split
      · exact hstop m rfl
      · exact hn

namespace Knot

variable {ι : Type} {τ : ι → Type} {grammar : Knot τ} {alive : List Nat}

/-- A grammar whose scope is alive does not stop the run. -/
theorem ensureLive_safe (h : grammar.name.scope ∈ alive) :
    grammar.ensureLive.Safe alive fun _ _ => True := by
  intro n k hk halive
  rw [ensureLive_eq_done_iff.mpr ⟨halive h, rfl, rfl⟩]
  exact ⟨trivial, hk, List.Subset.refl _⟩

/-- Nor does tying a grammar whose rules can be built. -/
theorem tie_safe {handles : (j : ι) → Parser (τ j)}
    (h : ∀ i, ∃ p, grammar.rule i handles = .ok p) :
    (grammar.tie handles).Safe alive fun _ _ => True := by
  intro n k hk _
  obtain ⟨log, tied, -, hdone⟩ := tie_done h n k
  rw [hdone]
  exact ⟨trivial, hk, List.Subset.refl _⟩

end Knot

namespace Parser

variable {α β γ δ : Type} {alive : List Nat}

/-- **The parser does not stop a run** while the scopes are alive, whatever else is. -/
def Safe (alive : List Nat) (p : Parser α) : Prop :=
  ∀ ⦃live⦄, alive ⊆ live → ∀ ⦃env n⦄, env.Safe live → n ≤ maxPosition →
    (p.run env n).Safe live fun _ reply => reply.Words env

namespace Safe

theorem mono {live : List Nat} {p : Parser α} (h : p.Safe alive) (hlive : alive ⊆ live) :
    p.Safe live :=
  fun _ hlive' => h (List.Subset.trans hlive hlive')

/-- What is left of a safe parser is a safe scan. -/
theorem scan {p : Parser α} (hp : p.Safe alive) : p.scan.Safe alive := by
  intro live hlive subject n hsize hn
  refine .bindReply (hp hlive (.new live hsize) hn) (fun _ _ stop _ hstop => ?_)
    fun _ _ _ _ _ => .pure fun _ _ => by simp
  exact .pure fun _ _ m hm => Option.some.inj hm ▸ hstop

/-! ## Parsers that are not made of others -/

theorem succeed (a : α) : (Parser.succeed a).Safe alive :=
  fun _ _ _ _ _ hn => .pure fun _ _ => ⟨rfl, hn⟩

theorem fail (message : String) : (Parser.fail message : Parser α).Safe alive :=
  fun _ _ _ _ _ _ => .pure fun _ _ _ hm => absurd hm (by simp)

theorem position : Parser.position.Safe alive :=
  fun _ _ _ _ _ hn => .pure fun _ _ => ⟨rfl, hn⟩

/-- There are words for all positions of the subject. -/
theorem moveTo (target : Nat) : (Parser.moveTo target).Safe alive := by
  intro live _ env n henv hn
  unfold Parser.moveTo
  simp only []
  split
  · next h => exact .pure fun _ _ => ⟨rfl, Nat.le_trans (Text.IsBoundary.le_size h) henv.1⟩
  · exact .pure fun _ _ => Reply.words_fail_here hn _

/-- **A token reads only where there is text**, and ends inside the subject. -/
theorem token {read : Reader} (hread : read.Sound) (message : String) :
    (Parser.token read message).Safe alive := by
  intro live _ env n henv hn
  refine .bind (henv.skipFrom hn) fun _ _ start hstart => ?_
  cases hm : (env.from? start).bind read with
  | none => exact .pure fun _ _ => Reply.words_fail_here hn _
  | some m =>
    have hend : start + m.size ≤ env.length := (hread.isBoundary hm).le_size
    exact .pure fun _ _ => ⟨rfl, Nat.le_trans hend henv.1⟩

theorem endWith (message : String) : (Parser.endWith message).Safe alive := by
  intro live _ env n henv hn
  refine .bind (henv.skipFrom hn) fun _ _ start hstart => ?_
  split
  · exact .pure fun _ _ => ⟨rfl, hstart⟩
  · exact .pure fun _ _ => Reply.words_fail_here hn _

theorem mayEndAt {env : Env} (henv : env.Safe alive) {n : Nat} (hn : n ≤ maxPosition) :
    (Parser.mayEndAt env n).Safe alive fun _ _ => True := by
  unfold Parser.mayEndAt
  cases hfollow : env.follow with
  | none => exact .pure fun _ _ => trivial
  | some follow =>
    simp only []
    split
    · exact .pure fun _ _ => trivial
    · refine .bind (henv.skipFrom hn) fun live hlive stop _ => ?_
      split
      · exact .pure fun _ _ => trivial
      · exact .bind (henv.2 follow (.inr hfollow) hlive henv.1 hn)
          fun _ _ _ _ => .pure fun _ _ => trivial

theorem bounded {p : Parser String} (hp : p.Safe alive) (message : String) :
    (p.bounded message).Safe alive := by
  intro live hlive env n henv hn
  refine .bindReply (hp hlive henv hn) (fun live' hlive' stop text hstop => ?_)
    fun _ _ _ _ _ => .pure fun _ _ => Reply.words_fail_here hn _
  refine .bind (mayEndAt (henv.mono hlive') hstop) fun _ _ may _ => ?_
  split
  · exact .pure fun _ _ => ⟨rfl, hstop⟩
  · exact .emit_bind _ (.pure fun _ _ => Reply.words_fail_here hstop _)

/-! ## Sequences -/

theorem bind {p : Parser α} {f : α → Parser β} (hp : p.Safe alive)
    (hf : ∀ a, (f a).Safe alive) : (p.bind f).Safe alive :=
  fun _ hlive _ _ henv hn => .bindReply (hp hlive henv hn)
    (fun _ hlive' _ a hstop => (hf a).mono hlive hlive' (henv.mono hlive') hstop)
    fun _ _ _ _ habout => .pure fun _ _ => habout

/-- The position that is yielded is a word. -/
theorem position_bind {f : Nat → Parser β} (hf : ∀ n, n ≤ maxPosition → (f n).Safe alive) :
    (Parser.position.bind f).Safe alive := by
  intro live hlive env n henv hn
  show ((Pure.pure (Reply.ok env n n) : Eval (Reply Nat)) >>= _).Safe _ _
  rw [Eval.pure_bind]
  exact hf n hn hlive henv hn

theorem map {p : Parser α} (f : α → β) (hp : p.Safe alive) : (p.map f).Safe alive := by
  rw [map_eq_bind]
  exact hp.bind fun a => succeed (f a)

theorem bindMap {p : Parser α} {k : α → Parser β} (f : α → β → γ) (hp : p.Safe alive)
    (hk : ∀ a, (k a).Safe alive) : (p.bindMap k f).Safe alive := by
  rw [bindMap_eq_bind]
  exact hp.bind fun a => (hk a).map (f a)

theorem seqRight {p : Parser α} {q : Parser β} (hp : p.Safe alive) (hq : q.Safe alive) :
    (p.seqRight q).Safe alive :=
  hp.bind fun _ => hq

theorem seqLeft {p : Parser α} {q : Parser β} (hp : p.Safe alive) (hq : q.Safe alive) :
    (p.seqLeft q).Safe alive := by
  rw [seqLeft_eq_bind]
  exact hp.bind fun a => hq.map fun _ => a

/-! ## Parsers that go back -/

theorem firstOf {ps : List (Parser α)} (hps : ∀ p ∈ ps, p.Safe alive) {live : List Nat}
    (hlive : alive ⊆ live) {env : Env} (henv : env.Safe live) {n : Nat} (hn : n ≤ maxPosition)
    (index : Nat) {failure : Reply α} (hfailure : failure.Words env) :
    (Parser.firstOf index failure ps env n).Safe live fun _ reply => reply.Words env := by
  induction ps generalizing index failure live with
  | nil => exact .pure fun _ _ => hfailure
  | cons p ps ih =>
    refine .bindReply (hps p List.mem_cons_self hlive henv hn)
      (fun _ _ _ _ hstop => .pure fun _ _ => ⟨rfl, hstop⟩) fun _ hlive' _ _ habout => ?_
    exact .emit_bind _ (ih (fun q hq => hps q (List.mem_cons_of_mem p hq))
      (List.Subset.trans hlive hlive') (henv.mono hlive') (index + 1) habout)

theorem choice {ps : List (Parser α)} (hps : ∀ p ∈ ps, p.Safe alive) :
    (Parser.choice ps).Safe alive :=
  fun _ hlive _ _ henv hn => firstOf hps hlive henv hn 0 (Reply.words_fail_here hn _)

theorem orElse {p q : Parser α} (hp : p.Safe alive) (hq : q.Safe alive) :
    (p.orElse q).Safe alive :=
  fun _ hlive _ _ henv hn => .bindReply (hp hlive henv hn)
    (fun _ _ _ _ hstop => .pure fun _ _ => ⟨rfl, hstop⟩)
    fun _ hlive' _ _ _ => .emit_bind _ (hq.mono hlive hlive' (henv.mono hlive') hn)

theorem withDefault {p : Parser α} (hp : p.Safe alive) (default : α) :
    (p.withDefault default).Safe alive :=
  fun _ hlive _ _ henv hn => .bindReply (hp hlive henv hn)
    (fun _ _ _ _ hstop => .pure fun _ _ => ⟨rfl, hstop⟩) fun _ _ _ _ _ => .pure fun _ _ => ⟨rfl, hn⟩

theorem optional {p : Parser α} (hp : p.Safe alive) : p.optional.Safe alive :=
  (hp.map some).withDefault none

theorem lookahead {p : Parser α} (hp : p.Safe alive) : p.lookahead.Safe alive :=
  fun _ hlive _ _ henv hn => .bindReply (hp hlive henv hn)
    (fun _ _ _ _ _ => .pure fun _ _ => ⟨rfl, hn⟩) fun _ _ _ _ habout => .pure fun _ _ => habout

theorem notAhead {p : Parser α} (hp : p.Safe alive) : p.notAhead.Safe alive :=
  fun _ hlive _ _ henv hn => .bindReply (hp hlive henv hn)
    (fun _ _ _ _ _ => .pure fun _ _ => Reply.words_fail_here hn _)
    fun _ _ _ _ _ => .pure fun _ _ => ⟨rfl, hn⟩

theorem filter {p : Parser α} (hp : p.Safe alive) (accept : α → Bool) :
    (p.filter accept).Safe alive := by
  intro live hlive env n henv hn
  refine .bindReply (hp hlive henv hn) (fun _ _ stop a hstop => ?_)
    fun _ _ _ _ habout => .pure fun _ _ => habout
  simp only []
  split
  · exact .pure fun _ _ => ⟨rfl, hstop⟩
  · exact .pure fun _ _ => Reply.words_fail_here hn _

/-- **A failure that is changed has to say something**, and may be about any word. -/
theorem mapFailure {p : Parser α} {f : String → Option Nat → String × Option Nat}
    (hp : p.Safe alive)
    (hf : ∀ message about, (∀ m, about = some m → m ≤ maxPosition) →
      (f message about).1 ≠ "" ∧ ∀ m, (f message about).2 = some m → m ≤ maxPosition) :
    (p.mapFailure f).Safe alive := by
  intro live hlive env n henv hn
  refine .bindReply (hp hlive henv hn) (fun _ _ _ _ hstop => .pure fun _ _ => ⟨rfl, hstop⟩)
    fun live' _ message about habout => ?_
  obtain ⟨hmessage, hplace⟩ := hf message about habout
  show (if (f message about).1.isEmpty then Eval.stop .emptyMessage
    else Pure.pure (Reply.fail (f message about).1 (f message about).2)).Safe live' _
  rw [if_neg fun hempty => hmessage (String.isEmpty_iff.mp hempty)]
  exact .pure fun _ _ => hplace

theorem mapMessage {p : Parser α} {f : String → String} (hp : p.Safe alive)
    (hf : ∀ message, f message ≠ "") : (p.mapMessage f).Safe alive :=
  hp.mapFailure fun message _ habout => ⟨hf message, habout⟩

theorem mapMessageAt {p : Parser α} {f : String → String} {g : Option Nat → Nat}
    (hp : p.Safe alive) (hf : ∀ message, f message ≠ "") (hg : ∀ about, g about ≤ maxPosition) :
    (p.mapMessageAt f g).Safe alive :=
  hp.mapFailure fun message about _ => ⟨hf message, fun _ hm => Option.some.inj hm ▸ hg about⟩

/-! ## Repetition -/

/-- A round is safe, and goes on in the environment it was called in. -/
theorem round {item : Parser α} {delimiter : Parser δ} (hitem : item.Safe alive)
    (hdelimiter : delimiter.Safe alive) {live : List Nat} (hlive : alive ⊆ live) {env : Env}
    (henv : env.Safe live) {n : Nat} (hn : n ≤ maxPosition) :
    (Parser.round item delimiter env n).Safe live fun _ r =>
      ∀ r', r = some r' → r'.env = env ∧ r'.stop ≤ maxPosition := by
  have hend : ∀ live' reason, (Eval.emit reason >>= fun _ =>
      (Pure.pure none : Eval (Option (Round δ α)))).Safe live' fun _ r =>
        ∀ r', r = some r' → r'.env = env ∧ r'.stop ≤ maxPosition :=
    fun _ _ => .emit_bind _ (.pure fun _ _ => by simp)
  refine .bindReply (hdelimiter hlive henv hn) (fun live₁ hlive₁ middle d hmiddle => ?_)
    fun _ _ _ _ _ => hend _ _
  refine .bindReply (hitem.mono hlive hlive₁ (henv.mono hlive₁) hmiddle)
    (fun _ _ stop a hstop => ?_) fun _ _ _ _ _ => hend _ _
  simp only []
  split
  · exact .pure fun _ _ r' hr' => by rw [← Option.some.inj hr']; exact ⟨rfl, hstop⟩
  · exact hend _ _

/-- A chain of rounds is safe. The induction is on the rounds that are allowed. -/
theorem rounds {item : Parser α} {delimiter : Parser δ} (hitem : item.Safe alive)
    (hdelimiter : delimiter.Safe alive) (left : Nat) {live : List Nat} (hlive : alive ⊆ live)
    {env : Env} (henv : env.Safe live) {n : Nat} (hn : n ≤ maxPosition) :
    (Parser.rounds item delimiter left env n).Safe live fun _ chain =>
      ∀ a, (Round.reply env n chain a).Words env := by
  induction left generalizing n live with
  | zero =>
    unfold Parser.rounds
    refine .bind (round hitem hdelimiter hlive henv hn) fun _ _ r _ => ?_
    cases r <;> exact .pure fun _ _ _ => ⟨rfl, hn⟩
  | succ left ih =>
    unfold Parser.rounds
    refine .bind (round hitem hdelimiter hlive henv hn) fun live' hlive' r hr => ?_
    cases r with
    | none => exact .pure fun _ _ _ => ⟨rfl, hn⟩
    | some r =>
      obtain ⟨rfl, hstop⟩ := hr r rfl
      exact .bind (ih (List.Subset.trans hlive hlive') (henv.mono hlive') hstop)
        fun _ _ _ hchain => .pure fun _ _ => hchain

theorem repetition {item : Parser α} {delimiter : Parser δ} (hitem : item.Safe alive)
    (hdelimiter : delimiter.Safe alive) (value : α → List (Round δ α) → α) :
    (Parser.repetition item delimiter value).Safe alive := by
  intro live hlive env n henv hn
  refine .bindReply (hitem hlive henv hn) (fun live' hlive' stop first hstop => ?_)
    fun _ _ _ _ habout => .pure fun _ _ => habout
  exact .bind (rounds hitem hdelimiter _ (List.Subset.trans hlive hlive') (henv.mono hlive') hstop)
    fun _ _ _ hchain => .pure fun _ _ => hchain _

theorem foldSep {item : Parser α} {delimiter : Parser δ} (hitem : item.Safe alive)
    (hdelimiter : delimiter.Safe alive) (f : α → δ → α → α) :
    (item.foldSep delimiter f).Safe alive := by
  rw [foldSep_eq_repetition]
  exact hitem.repetition hdelimiter _

theorem foldSepRight {item : Parser α} {delimiter : Parser δ} (hitem : item.Safe alive)
    (hdelimiter : delimiter.Safe alive) (f : α → δ → α → α) :
    (item.foldSepRight delimiter f).Safe alive := by
  rw [foldSepRight_eq_repetition]
  exact hitem.repetition hdelimiter _

/-- Adjacent items have an empty text between them. -/
theorem foldMany1 {item : Parser α} (hitem : item.Safe alive) (f : α → α → α) :
    (item.foldMany1 f).Safe alive :=
  hitem.foldSep (token (.exact _) _) _

/-! ## Other environments and other texts -/

/-- **A change of environment** that is safe, and makes a safe environment. -/
theorem inEnvM {p : Parser α} {change : Env → Eval Env} (hp : p.Safe alive)
    (hchange : ∀ live, alive ⊆ live → ∀ env, env.Safe live →
      (change env).Safe live fun live' env' => env'.Safe live') :
    (p.inEnvM change).Safe alive := by
  intro live hlive env n henv hn
  refine .bind (hchange live hlive env henv) fun live' hlive' env' henv' => ?_
  exact .bindReply (hp.mono hlive hlive' henv' hn)
    (fun _ _ _ _ hstop => .pure fun _ _ => ⟨rfl, hstop⟩)
    fun _ _ _ _ habout => .pure fun _ _ => habout

theorem inEnv {p : Parser α} {change : Env → Env} (hp : p.Safe alive)
    (hchange : ∀ live env, env.Safe live → (change env).Safe live) :
    (p.inEnv change).Safe alive := by
  rw [Construction.inEnv_eq_inEnvM]
  exact hp.inEnvM fun _ _ env henv =>
    .pure fun live hlive => hchange live env (henv.mono hlive)

theorem onText {p : Parser α} (hp : p.Safe alive) {subject : Text}
    (hsize : Text.size subject ≤ maxPosition) : (p.onText subject).Safe alive := by
  intro live hlive env n henv hn
  have hother : (env.withSubject subject).Safe live := ⟨hsize, henv.2⟩
  exact .bindReply (hp hlive hother (Nat.zero_le _)) (fun _ _ _ _ _ => .pure fun _ _ => ⟨rfl, hn⟩)
    fun _ _ _ _ _ => .pure fun _ _ => Reply.words_fail_here hn _

/-! ## Grammars that are built during the run, and recursive grammars -/

/-- **A part that is built on the spot** runs while its scope is alive. The scope that
is closed afterwards is a new one, so nothing that was alive before is lost. -/
theorem fresh {build : Nat → Parser α} (hbuild : ∀ scope, (build scope).Safe (scope :: alive)) :
    (Parser.fresh fun scope => .ok (build scope)).Safe alive := by
  intro live hlive env n henv hn budget k hk hall
  let k₁ : Knots := ⟨k.nextScope + 1, k.nextScope :: k.live, k.tied⟩
  have hsane : k₁.Sane := by
    intro scope hscope
    obtain rfl | hscope := List.mem_cons.mp hscope
    · exact Nat.lt_succ_self _
    · exact Nat.lt_succ_of_lt (hk scope hscope)
  have hrun := hbuild k.nextScope (List.cons_subset_cons k.nextScope hlive)
    (henv.mono (List.subset_cons_self k.nextScope live)) hn budget k₁ hsane
    (List.cons_subset_cons k.nextScope hall)
  -- opening the scope and building the part report nothing
  have hfresh : (Parser.fresh fun scope => .ok (build scope)).run env n budget k
      = ((build k.nextScope).run env n >>= fun reply =>
          Eval.closeScope k.nextScope >>= fun _ => pure reply) budget k₁ := by
    refine (Outcome.after_nil _).trans ?_
    exact congrFun (congrFun (Eval.pure_bind (build k.nextScope) _) budget) k₁
  rw [hfresh, Eval.bind_apply]
  cases hdone : (build k.nextScope).run env n budget k₁ with
  | done reply log k₂ =>
    rw [hdone] at hrun
    obtain ⟨hreply, hk₂, hlive₂⟩ := hrun
    refine ⟨hreply, fun scope hscope => hk₂ scope ((List.mem_filter.mp hscope).1), ?_⟩
    intro scope hscope
    refine List.mem_filter.mpr ⟨hlive₂ (List.mem_cons_of_mem _ hscope), ?_⟩
    exact bne_iff_ne.mpr (Nat.ne_of_lt (hk scope hscope))
  | fault cause log k₂ => rw [hdone] at hrun; exact hrun
  | exhausted => trivial

/-- **A recursive grammar whose scope is alive is safe if its rules are**, given handles
that are. The induction is on the calls that are left. -/
theorem entry {ι : Type} {τ : ι → Type} {grammar : Knot τ} (hname : grammar.name.scope ∈ alive)
    (hbuilt : ∀ i handles, ∃ p, grammar.rule i handles = .ok p)
    (hrules : ∀ handles : Parsers τ, (∀ j, (handles j).Safe alive) →
      ∀ i p, grammar.rule i handles = .ok p → p.Safe alive) (i : ι) :
    (grammar.entry i).Safe alive := by
  have hcall : ∀ budget i, (⟨grammar.call budget i⟩ : Parser (τ i)).Safe alive := by
    intro budget
    induction budget with
    | zero => exact fun _ _ _ _ _ _ _ => .giveUp
    | succ budget ih =>
      have hhandles : ∀ j, (grammar.handlesAt budget j).Safe alive := by
        intro j live hlive env n henv hn
        exact .bind (Knot.ensureLive_safe (hlive hname)) fun _ hlive' _ _ =>
          (ih j).mono hlive hlive' (henv.mono hlive') hn
      intro i live hlive env n henv hn
      obtain ⟨p, hp⟩ := hbuilt i (grammar.handlesAt budget)
      refine .bind (Knot.tie_safe fun i => hbuilt i _) fun live' hlive' _ _ => ?_
      show (Eval.ofExcept (grammar.rule i (grammar.handlesAt budget)) >>= fun p =>
        Eval.withBudget budget (p.run env n)).Safe live' _
      rw [hp, Eval.ofExcept, Eval.pure_bind]
      exact .withBudget ((hrules _ hhandles i p hp).mono hlive hlive' (henv.mono hlive') hn)
  exact fun live hlive env n henv hn => .bind .budget fun _ hlive' budget _ =>
    (hcall budget i).mono hlive hlive' (henv.mono hlive') hn

end Safe

end Parser

/-! ## Literals and other primitives -/

namespace Literal

open Descent.Parser

variable {alive : List Nat}

theorem Safe.digits (pattern : String) (accept : Char → Bool) (base : Nat) :
    (digits pattern accept base).Safe alive := by
  refine .bind (.token (.run1 accept) _) fun text => ?_
  show Parser.Safe alive (if _ then _ else _)
  split
  · exact .succeed _
  · exact .fail _

theorem Safe.magnitude (format : NumberFormat) : (magnitude format).Safe alive := by
  have marked : ∀ {marker : String} {p : Parser Nat}, p.Safe alive →
      ((Parser.string marker).seqRight p).Safe alive := fun hp => .seqRight (.token (.exact _) _) hp
  exact magnitude_induction .orElse (marked (Safe.digits _ _ _)) (marked (Safe.digits _ _ _))
    (marked (Safe.digits _ _ _)) (Safe.digits _ _ _) format

/-- The failure of a number literal has a message, and is about the position of its call. -/
theorem Safe.number (format : NumberFormat) : (number format).Safe alive :=
  .position_bind fun _ hn => .bind (.withDefault (.token (.exact _) _) _) fun _ =>
    .map _ (.bind (.mapMessageAt (Safe.magnitude format) (fun _ => by decide) fun _ => hn)
      fun _ => .succeed _)

theorem Safe.decoded {read : Reader} (hread : read.Sound) (pattern : String)
    (meaning : Text → Option Text) : (decoded read pattern meaning).Safe alive := by
  intro live hlive env n henv hn
  have htoken : (Parser.token read ("Does not match pattern " ++ pattern)).Safe alive :=
    .token hread _
  refine .bindReply (htoken hlive henv hn) (fun _ _ stop text hstop => ?_)
    fun _ _ _ _ habout => .pure fun _ _ => habout
  simp only []
  split
  · exact .pure fun _ _ => ⟨rfl, hstop⟩
  · exact .pure fun _ _ => Reply.words_fail_here hn _

theorem Safe.fragment (quote : Char) (escape : Escape) (format : StringFormat) :
    (fragment quote escape format).Safe alive :=
  fragment_induction .orElse (fun form => Safe.decoded (.codeForm form) _ _)
    (Safe.decoded .pairReader _ _) (.map _ (.token (.run1 _) _))

theorem Safe.quotedWith (quote : Char) (escape : Escape) (format : StringFormat)
    {message : String} (h : message ≠ "") :
    (quotedWith quote escape format message).Safe alive := by
  have hquote : (Parser.string (String.singleton quote)).Safe alive := .token (.exact _) _
  have hfragments : ((Literal.fragment quote escape format).foldMany (fun a b => a ++ b)
      []).Safe alive := .withDefault (.foldMany1 (Safe.fragment quote escape format) _) _
  refine .mapMessage (.map _ (.seqRight hquote ?_)) fun _ => h
  refine .inEnv (.seqLeft hfragments hquote) fun live env henv => ⟨henv.1, ?_⟩
  rintro scan (hscan | hscan)
  · exact absurd hscan (by simp [Env.withoutSkip, Env.withSkip])
  · exact henv.2 scan (.inr hscan)

end Literal

/-- A string literal has a message for its failures. -/
def Primitive.Speaks {α : Type} : Primitive α → Prop
  | .quoted _ _ _ message => message ≠ ""
  | _ => True

/-- **No primitive stops a run.** -/
theorem Primitive.safe {α : Type} (p : Primitive α) (hp : p.Speaks) (alive : List Nat) :
    p.parser.Safe alive := by
  cases p with
  | string => exact .token (.exact _) _
  | ignoreCase => exact .token (.sameLetters _) _
  | pattern text message p valid =>
    obtain ⟨program, rfl⟩ := Parser.exists_matching valid
    exact .token (.find? program) message
  | atEnd => exact .endWith _
  | real message =>
    refine .bind (.token .real message) fun text => ?_
    split
    · exact .succeed _
    · exact .fail _
  | key => exact .bounded (.token (.exact _) _) _
  | keyIgnoreCase => exact .bounded (.token (.sameLetters _) _) _
  | number => exact Literal.Safe.number _
  | quoted => exact Literal.Safe.quotedWith _ _ _ hp
  | javaIdentifier => exact .token .identifierReader _
  | succeed => exact .succeed _
  | fail => exact .fail _
  | position => exact .position
  | moveTo => exact .moveTo _

/-! ## Whatever is built -/

namespace Construction

/-- **Nothing in the construction gives a reason to stop a run**: its patterns are
valid, string literals and changes of failures have messages, and the grammars are
alive that its recursive parts belong to, where a part that is built on the spot may
use the scope that is opened for it. Texts and positions have room. What is written
by hand, here or in a change of environment, does not stop the run by itself. -/
def Harmless {V : Type} {Γ : V → Type} {α : Type} : Construction Γ α → List Nat → Prop
  | handle _, _ => True
  | primitive p, _ => p.Speaks
  | own p, alive => p.Safe alive
  | unbuilt _, _ => False
  | map _ p, alive => p.Harmless alive
  | bind p k, alive => p.Harmless alive ∧ ∀ a, (k a).Harmless alive
  | bindMap p k _, alive => p.Harmless alive ∧ ∀ a, (k a).Harmless alive
  | seqRight p q, alive => p.Harmless alive ∧ q.Harmless alive
  | seqLeft p q, alive => p.Harmless alive ∧ q.Harmless alive
  | choice ps, alive => ∀ i, (ps i).Harmless alive
  | orElse p q, alive => p.Harmless alive ∧ q.Harmless alive
  | withDefault p _, alive => p.Harmless alive
  | optional p, alive => p.Harmless alive
  | lookahead p, alive => p.Harmless alive
  | notAhead p, alive => p.Harmless alive
  | filter p _, alive => p.Harmless alive
  | mapMessage p f, alive => p.Harmless alive ∧ ∀ message, f message ≠ ""
  | mapMessageAt p f g, alive =>
    p.Harmless alive ∧ (∀ message, f message ≠ "") ∧ ∀ about, g about ≤ maxPosition
  | withMessage p message, alive => p.Harmless alive ∧ message ≠ ""
  | foldSep item delimiter _, alive => item.Harmless alive ∧ delimiter.Harmless alive
  | foldSepRight item delimiter _, alive => item.Harmless alive ∧ delimiter.Harmless alive
  | foldMany1 item _, alive => item.Harmless alive
  | foldMany item _ _, alive => item.Harmless alive
  | inEnv p scanners change, alive =>
    p.Harmless alive ∧ (∀ j, (scanners j).Harmless alive)
      ∧ ∀ scans live, alive ⊆ live → (∀ j, (scans j).Safe live) → ∀ env, env.Safe live →
        (change scans env).Safe live fun live' env' => env'.Safe live'
  | onText p subject, alive => p.Harmless alive ∧ Text.size subject ≤ maxPosition
  | fresh build, alive => ∀ scope, (build scope).Harmless (scope :: alive)
  | recursive name _ rules _, alive => name.scope ∈ alive ∧ ∀ i, (rules i).Harmless alive

/-- **Whatever is harmless is safe.** -/
theorem safe {V : Type} {Γ : V → Type} {α : Type} (c : Construction Γ α) {alive : List Nat}
    (hc : c.Harmless alive) {handles : Parsers Γ} (hh : ∀ v, (handles v).Safe alive) :
    (c.parser handles).Safe alive := by
  induction c generalizing alive with
  | handle v => exact hh v
  | primitive p => exact p.safe hc alive
  | own p => exact hc
  | unbuilt cause => exact hc.elim
  | map f p ih => exact .map f (ih hc hh)
  | bind p k ihp ihk => exact .bind (ihp hc.1 hh) fun a => ihk a (hc.2 a) hh
  | bindMap p k f ihp ihk => exact .bindMap f (ihp hc.1 hh) fun a => ihk a (hc.2 a) hh
  | seqRight p q ihp ihq => exact .seqRight (ihp hc.1 hh) (ihq hc.2 hh)
  | seqLeft p q ihp ihq => exact .seqLeft (ihp hc.1 hh) (ihq hc.2 hh)
  | choice ps ih =>
    refine .choice fun p hp => ?_
    obtain ⟨i, rfl⟩ := List.mem_ofFn.mp hp
    exact ih i (hc i) hh
  | orElse p q ihp ihq => exact .orElse (ihp hc.1 hh) (ihq hc.2 hh)
  | withDefault p default ih => exact .withDefault (ih hc hh) default
  | optional p ih => exact .optional (ih hc hh)
  | lookahead p ih => exact .lookahead (ih hc hh)
  | notAhead p ih => exact .notAhead (ih hc hh)
  | filter p accept ih => exact .filter (ih hc hh) accept
  | mapMessage p f ih => exact .mapMessage (ih hc.1 hh) hc.2
  | mapMessageAt p f g ih => exact .mapMessageAt (ih hc.1 hh) hc.2.1 hc.2.2
  | withMessage p message ih => exact .mapMessage (ih hc.1 hh) fun _ => hc.2
  | foldSep item delimiter f ihi ihd => exact .foldSep (ihi hc.1 hh) (ihd hc.2 hh) f
  | foldSepRight item delimiter f ihi ihd => exact .foldSepRight (ihi hc.1 hh) (ihd hc.2 hh) f
  | foldMany1 item f ih => exact .foldMany1 (ih hc hh) f
  | foldMany item f default ih => exact .withDefault (.foldMany1 (ih hc hh) f) default
  | inEnv p scanners change ihp ihs =>
    refine .inEnvM (ihp hc.1 hh) fun live hlive env henv => ?_
    exact hc.2.2 _ live hlive (fun j => (ihs j (hc.2.1 j) hh).scan.mono hlive) env henv
  | onText p subject ih => exact .onText (ih hc.1 hh) hc.2
  | fresh build ih =>
    exact .fresh fun scope =>
      ih scope (hc scope) fun v => (hh v).mono (List.subset_cons_self scope alive)
  | recursive name order rules i ih =>
    refine .entry hc.1 (fun i inner => ⟨_, rfl⟩)
      (fun inner hinner i p hp => Except.ok.inj hp ▸ ih i (hc.2 i) fun v => ?_) i
    -- a handle of a rule is one of its surroundings, or one of the grammar
    cases v with
    | inl v => exact hh v
    | inr j => exact hinner j

end Construction

/-! ## Text matchers

Nothing is asked of the environment here, nor of the position of the call. What
counts is what is read last. -/

namespace Parser

variable {α β : Type} {P : α → Prop}

/-- **A success ends inside the subject**, at the end of a character, and its value
satisfies a predicate. -/
def EndsInside (P : α → Prop) (p : Parser α) : Prop :=
  ∀ env n, (p.run env n).Ensures fun reply => ∀ env' stop a, reply = .ok env' stop a →
    Text.IsBoundary stop env.subject ∧ P a

namespace EndsInside

theorem token {read : Reader} (hread : read.Sound) (message : String) :
    (Parser.token read message).EndsInside fun _ => True := by
  intro env n
  refine .bind_any fun start => ?_
  cases hm : (env.from? start).bind read with
  | none => exact .pure fun _ _ _ h => absurd h (by simp)
  | some m =>
    refine .pure ?_
    rintro env' stop text ⟨⟩
    exact ⟨hread.isBoundary hm, trivial⟩

theorem bounded {p : Parser String} (hp : p.EndsInside fun _ => True) (message : String) :
    (p.bounded message).EndsInside fun _ => True := by
  intro env n
  refine .bind (hp env n) fun reply hreply => ?_
  cases reply with
  | fail about => exact .pure fun _ _ _ h => absurd h (by simp)
  | ok env' stop text =>
    refine .bind_any fun may => ?_
    split
    · exact .pure fun _ _ _ h => by cases h; exact hreply _ _ _ rfl
    · exact .bind_any fun _ => .pure fun _ _ _ h => absurd h (by simp)

/-- **The last part decides**, where what comes before hands on the environment. -/
theorem bind {p : Parser α} {f : α → Parser β} {Q : β → Prop} (hp : p.KeepsEnv)
    (hf : ∀ a, (f a).EndsInside Q) : (p.bind f).EndsInside Q :=
  fun env n => .bindReply (hp env n) (fun stop a => hf a env stop)
    fun _ _ => .pure fun _ _ _ h => absurd h (by simp)

theorem map {p : Parser α} {f : α → β} {Q : β → Prop} (hp : p.EndsInside P)
    (h : ∀ a, P a → Q (f a)) : (p.map f).EndsInside Q := by
  intro env n
  refine .bind (hp env n) fun reply hreply => .pure ?_
  cases reply with
  | fail message about => exact fun _ _ _ heq => absurd heq (by simp [Reply.map])
  | ok env' stop a =>
    rintro env'' stop' b ⟨⟩
    exact ⟨(hreply env' stop a rfl).1, h a (hreply env' stop a rfl).2⟩

/-- What consumes nothing in the end ends where the part before it did. -/
theorem bind_here {p : Parser α} {f : α → Parser β} {Q : β → Prop}
    (hp : p.EndsInside P) (hf : ∀ a env n, P a → ((f a).run env n).Ensures fun reply =>
      ∀ env' stop b, reply = .ok env' stop b → stop = n ∧ Q b) :
    (p.bind f).EndsInside Q := by
  intro env n
  refine .bind (hp env n) fun reply hreply => ?_
  cases reply with
  | fail message about => exact .pure fun _ _ _ h => absurd h (by simp)
  | ok env' stop a =>
    obtain ⟨hstop, ha⟩ := hreply env' stop a rfl
    refine (hf a env' stop ha).mono fun reply hlast env'' stop' b heq => ?_
    obtain ⟨rfl, hb⟩ := hlast env'' stop' b heq
    exact ⟨hstop, hb⟩

theorem seqRight {p : Parser α} {q : Parser β} {Q : β → Prop} (hp : p.KeepsEnv)
    (hq : q.EndsInside Q) : (p.seqRight q).EndsInside Q :=
  bind hp fun _ => hq

theorem seqLeft {p : Parser α} {q : Parser β} (hp : p.KeepsEnv)
    (hq : q.EndsInside fun _ => True) : (p.seqLeft q).EndsInside fun _ => True := by
  rw [seqLeft_eq_bind]
  exact bind hp fun a => hq.map fun _ _ => trivial

theorem orElse {p q : Parser α} (hp : p.EndsInside P) (hq : q.EndsInside P) :
    (p.orElse q).EndsInside P := by
  intro env n
  refine .bind (hp env n) fun reply hreply => ?_
  cases reply with
  | ok env' stop a => exact .pure hreply
  | fail message about => exact .bind_any fun _ => hq env n

theorem mapFailure {p : Parser α} (hp : p.EndsInside P)
    (f : String → Option Nat → String × Option Nat) : (p.mapFailure f).EndsInside P := by
  intro env n
  refine .bind (hp env n) fun reply hreply => ?_
  cases reply with
  | ok env' stop a => exact .pure hreply
  | fail message about =>
    show (if (f message about).1.isEmpty then Eval.stop .emptyMessage
      else Pure.pure (Reply.fail (f message about).1 (f message about).2)).Ensures _
    split
    · exact .stop _
    · exact .pure fun _ _ _ h => absurd h (by simp)

end EndsInside

end Parser

namespace Literal

open Descent.Parser

/-- **A run of digits has a value that fits**, or it fails. -/
theorem EndsInside.digits (pattern : String) (accept : Char → Bool) (base : Nat) :
    (digits pattern accept base).EndsInside (· ≤ maxMagnitude) := by
  refine .bind_here (.token (.run1 accept) _) fun text env n _ => ?_
  show Eval.Ensures ((if _ then _ else _ : Parser Nat).run env n) _
  split
  · next hfits => exact .pure fun _ _ _ h => by cases h; exact ⟨rfl, hfits⟩
  · exact .pure fun _ _ _ h => absurd h (by simp)

theorem EndsInside.magnitude (format : NumberFormat) :
    (magnitude format).EndsInside (· ≤ maxMagnitude) := by
  have marked : ∀ {marker : String} {p : Parser Nat}, p.EndsInside (· ≤ maxMagnitude) →
      ((Parser.string marker).seqRight p).EndsInside (· ≤ maxMagnitude) :=
    fun hp => .seqRight (.token _ _) hp
  exact magnitude_induction .orElse (marked (EndsInside.digits _ _ _))
    (marked (EndsInside.digits _ _ _)) (marked (EndsInside.digits _ _ _))
    (EndsInside.digits _ _ _) format

/-- **A number fits with either sign**, so that none is out of range when it is negated. -/
theorem EndsInside.number (format : NumberFormat) :
    (number format).EndsInside fun i => i.natAbs ≤ maxMagnitude := by
  refine .bind .position fun start => .bind (.withDefault (.token _ _) _) fun sign => ?_
  have hnatural : (((Literal.magnitude format).mapMessageAt (fun _ => numberMessage)
      fun _ => start).bind fun n => Parser.succeed (n : Int)).EndsInside fun i =>
        i.natAbs ≤ maxMagnitude :=
    .bind_here ((EndsInside.magnitude format).mapFailure _) fun n _ _ hn =>
      .pure fun _ _ _ h => by cases h; exact ⟨rfl, hn⟩
  refine hnatural.map fun i hi => ?_
  split
  · exact (Int.natAbs_neg i).symm ▸ hi
  · exact hi

theorem KeepsEnv.decoded (read : Reader) (pattern : String) (meaning : Text → Option Text) :
    (decoded read pattern meaning).KeepsEnv := by
  intro env n
  have htoken : (Parser.token read ("Does not match pattern " ++ pattern)).KeepsEnv := .token _ _
  refine .bindReply (htoken env n) (fun stop text => ?_) fun _ _ => .pure trivial
  simp only []
  split
  · exact .pure rfl
  · exact .pure trivial

theorem KeepsEnv.fragment (quote : Char) (escape : Escape) (format : StringFormat) :
    (fragment quote escape format).KeepsEnv :=
  fragment_induction .orElse (fun _ => KeepsEnv.decoded _ _ _) (KeepsEnv.decoded _ _ _)
    (.map _ (.token _ _))

/-- A string literal ends with its closing quote. -/
theorem EndsInside.quotedWith (quote : Char) (escape : Escape) (format : StringFormat)
    (message : String) : (quotedWith quote escape format message).EndsInside fun _ => True := by
  have hfragments : ((Literal.fragment quote escape format).foldMany (fun a b => a ++ b)
      []).KeepsEnv := .withDefault (.foldMany1 (Literal.KeepsEnv.fragment quote escape format) _) _
  have hinner : (((Literal.fragment quote escape format).foldMany (fun a b => a ++ b) []).seqLeft
      (Parser.string (String.singleton quote))).EndsInside fun _ => True :=
    .seqLeft hfragments (.token (.exact _) _)
  have hbody : (body quote escape format).EndsInside fun _ => True := by
    intro env n
    refine .bind (hinner env.withoutSkip n) fun reply hreply => .pure ?_
    cases reply with
    | fail message about => exact fun _ _ _ h => absurd h (by simp [Reply.rebase])
    | ok env' stop text =>
      rintro env'' stop' text' ⟨⟩
      exact hreply env' stop text rfl
  have hliteral : (((Parser.string (String.singleton quote)).seqRight
      (body quote escape format)).map String.ofList).EndsInside fun _ => True :=
    .map (.seqRight (.token _ _) hbody) fun _ _ => trivial
  exact hliteral.mapFailure fun _ about => (message, about)

end Literal

namespace Primitive

/-- The primitives that match text. The end of the subject is not matched by reading,
and positions and results without text are not matched at all. -/
def IsMatcher {α : Type} : Primitive α → Prop
  | .atEnd _ | .succeed _ | .fail _ | .position | .moveTo _ => False
  | _ => True

/-- What is known of the value of a matcher: a number fits into a signed word of 64
bits, and so does what it becomes with the other sign. -/
def Fits : {α : Type} → Primitive α → α → Prop
  | _, .number _, i => Int.natAbs i ≤ Literal.maxMagnitude
  | _, _, _ => True

/-- **A text matcher that succeeds ends inside the subject**, at the end of a
character, in any environment and from any position. -/
theorem endsInside {α : Type} (p : Primitive α) (hp : p.IsMatcher) :
    p.parser.EndsInside p.Fits := by
  cases p with
  | string => exact .token (.exact _) _
  | ignoreCase => exact .token (.sameLetters _) _
  | pattern text message p valid =>
    obtain ⟨program, rfl⟩ := Parser.exists_matching valid
    exact .token (.find? program) message
  | real message =>
    refine .bind_here (.token .real message) fun text env n _ => ?_
    split
    · exact .pure fun _ _ _ h => by cases h; exact ⟨rfl, trivial⟩
    · exact .pure fun _ _ _ h => absurd h (by simp)
  | key => exact .bounded (.token (.exact _) _) _
  | keyIgnoreCase => exact .bounded (.token (.sameLetters _) _) _
  | number => exact Literal.EndsInside.number _
  | quoted => exact Literal.EndsInside.quotedWith _ _ _ _
  | javaIdentifier => exact .token .identifierReader _
  | atEnd | succeed | fail | position | moveTo => exact hp.elim

end Primitive

namespace Construction

/-- **A run is harmless, wherever it is sent.** What is skipped and what may follow a
keyword reports any positions, and the parser is called at any. A harmless grammar
does not stop the run, at whatever budget, and all that it reports are words. The
text matchers among its parts do better than that: one that succeeds has read text
of the subject to its end, whatever environment and position it was called with, and
a number has a value that fits. -/
theorem run_harmless {α : Type} (c : Closed α) {alive : List Nat} (hc : c.Harmless alive)
    {env : Env} (henv : env.Safe alive) {n : Nat} (hn : n ≤ maxPosition) (budget : Nat)
    {k : Knots} (hk : k.Sane) (hlive : alive ⊆ k.live) :
    (∀ cause log k', c.toParser.run env n budget k ≠ .fault cause log k')
    ∧ (∀ env' stop a log k', c.toParser.run env n budget k = .done (.ok env' stop a) log k' →
        stop ≤ maxPosition)
    ∧ (∀ message about log k',
        c.toParser.run env n budget k = .done (.fail message (some about)) log k' →
        about ≤ maxPosition)
    ∧ ∀ {β : Type} (p : Primitive β), p.IsMatcher → ∀ env n budget k env' stop b log k',
        p.parser.run env n budget k = .done (.ok env' stop b) log k' →
        env' = env ∧ stop ≤ env.length ∧ Text.IsBoundary stop env.subject ∧ p.Fits b := by
  have hsafe : c.toParser.Safe alive := c.safe hc fun v => v.elim
  have hend := hsafe (List.Subset.refl alive) henv hn budget k hk hlive
  refine ⟨?_, ?_, ?_, ?_⟩
  · intro cause log k' hfault
    rw [hfault] at hend
    exact hend
  · intro env' stop a log k' hdone
    rw [hdone] at hend
    exact hend.1.2
  · intro message about log k' hdone
    rw [hdone] at hend
    exact hend.1 about rfl
  · intro β p hp env n budget k env' stop b log k' hdone
    obtain ⟨hstop, hfits⟩ := p.endsInside hp env n hdone env' stop b rfl
    exact ⟨p.keepsEnv env n hdone, hstop.le_size, hstop, hfits⟩

/-- What is skipped is beyond the subject once anything was read, and what may follow a
keyword ends inside a character. The accented letter is read; the end is found, beyond
the subject. -/
theorem run_harmless_beyond :
    let env : Env := ⟨['é'], some fun _ n => pure (some (if n = 0 then 0 else 7)),
      some fun _ _ => pure (some 1)⟩
    accents.Harmless [0] ∧ env.Safe [0]
    ∧ (∀ cause log k', accents.toParser.run env 0 4 .initial ≠ .fault cause log k')
    ∧ (∃ log k', accents.toParser.run env 0 4 .initial = .done (.ok env 7 "end") log k')
    ∧ 7 ≤ maxPosition
    ∧ (∃ log k', (Parser.keyWith "é" "no accent").run env 0 4 .initial
        = .done (.ok env 2 "é") log k')
    ∧ 2 ≤ env.length ∧ Text.IsBoundary 2 env.subject := by
  intro env
  have hc : accents.Harmless [0] :=
    ⟨List.mem_singleton_self 0, fun _ => ⟨⟨trivial, trivial⟩, trivial, trivial⟩⟩
  have hscan : ∀ f : Nat → Nat, (∀ n, f n ≤ 7) →
      Scan.Safe [0] fun _ n => pure (some (f n)) := by
    intro f hf live _ subject n _ _
    exact .pure fun _ _ m hm => Option.some.inj hm ▸ Nat.le_trans (hf n) (by decide)
  have henv : env.Safe [0] := by
    refine ⟨by decide, ?_⟩
    rintro scan (h | h)
    · exact Option.some.inj h ▸ hscan _ fun n => by split <;> decide
    · exact Option.some.inj h ▸ hscan _ fun n => by decide
  have hk : Knots.initial.Sane := fun scope h => by
    rw [List.mem_singleton.mp h]
    exact Nat.zero_lt_one
  obtain ⟨hsafe, hstop, -, hmatcher⟩ :=
    accents.run_harmless hc henv (Nat.zero_le maxPosition) 4 hk (List.Subset.refl _)
  have hrun : ∃ log k', accents.toParser.run env 0 4 .initial = .done (.ok env 7 "end") log k' :=
    ⟨_, _, rfl⟩
  have hkey : ∃ log k', (Parser.keyWith "é" "no accent").run env 0 4 .initial
      = .done (.ok env 2 "é") log k' := ⟨_, _, rfl⟩
  obtain ⟨log₁, k₁, hdone₁⟩ := hrun
  obtain ⟨log₂, k₂, hdone₂⟩ := hkey
  obtain ⟨-, hinside, hboundary, -⟩ :=
    hmatcher (.key "é" "no accent") trivial env 0 4 .initial env 2 "é" log₂ k₂ hdone₂
  exact ⟨hc, henv, hsafe, ⟨log₁, k₁, hdone₁⟩, hstop env 7 "end" log₁ k₁ hdone₁,
    ⟨log₂, k₂, hdone₂⟩, hinside, hboundary⟩

end Construction

end Descent
