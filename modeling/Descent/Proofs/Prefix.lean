import Descent.Proofs.Agreement
import Descent.Proofs.Boundary
import Descent.Proofs.Repetition

/-!
# What stands before is not seen

A parser that is started behind a text does what it does without that text, with
every position moved by its size (`Construction.runIn_prepend`). Nothing looks
back: a reader is given the text that is left, an environment is asked for the
text from a position on, and all that is done with positions is to hand them on,
to compare them with each other, and to go back to one that was handed over.

The two runs are compared part by part (`Eval.Agree`): `Parser.Oblivious` says
that a parser, called behind a text and called without it, ends alike, with
replies that differ by that text. There are two exceptions. Over another text
nothing is moved, since both runs do the same there (`Parser.onText`). And a
number literal keeps the position of its sign for its failures, so that its
parts are compared with a part that was told another position
(`Parser.MovesTo`); nothing else may ask for positions
(`Construction.Policy.oblivious`).

Positions are words. A repetition does not go beyond the largest of them, so the
text before and the subject together have to fit into it, and the invariant holds
every position to the subject.
-/

namespace Descent

open Eval (Agree)

/-! ## Environments and replies behind a text -/

/-- The environment where a text stands before the subject. -/
def Env.prepend (u : Text) (env : Env) : Env := env.withSubject (u ++ env.subject)

/-- The reply behind a text: every position is moved by the size of the text. -/
def Reply.prepend {α : Type} (u : Text) : Reply α → Reply α
  | .ok env stop a => .ok (env.prepend u) (Text.size u + stop) a
  | .fail message about => .fail message (about.map (Text.size u + ·))

namespace Env

variable {u : Text} {env : Env}

@[simp] theorem length_prepend : (env.prepend u).length = Text.size u + env.length :=
  Text.size_append u env.subject

/-- **The same text is left** behind a text. -/
@[simp] theorem from?_prepend (n : Nat) :
    (env.prepend u).from? (Text.size u + n) = env.from? n :=
  Text.from?_size_add_append u env.subject n

end Env

/-- **A scan that does not see what stands before**: behind the text it ends as it
ends without it, and within the subject. -/
def Scan.Oblivious (u : Text) (scan : Scan) : Prop :=
  ∀ subject n, Text.size u + Text.size subject ≤ maxPosition → n ≤ Text.size subject →
    Agree (fun far near => far = near.map (Text.size u + ·)
        ∧ ∀ stop, near = some stop → stop ≤ Text.size subject)
      (scan (u ++ subject) (Text.size u + n)) (scan subject n)

/-- The text and the subject fit together into the positions, and the scans do not
see the text. -/
structure Env.Oblivious (u : Text) (env : Env) : Prop where
  room : Text.size u + env.length ≤ maxPosition
  scans : ∀ s, env.skip = some s ∨ env.follow = some s → s.Oblivious u

/-- **Replies that differ by a text before**: the one is what the other is behind it,
and a success goes on in the environment of the call, within its subject. -/
def Reply.Moved {α : Type} (u : Text) (env : Env) (far near : Reply α) : Prop :=
  far = near.prepend u ∧ ∀ env' stop a, near = .ok env' stop a → env' = env ∧ stop ≤ env.length

namespace Reply.Moved

variable {α : Type} {u : Text} {env : Env}

theorem ok {stop : Nat} (h : stop ≤ env.length) (a : α) :
    Moved u env (.ok (env.prepend u) (Text.size u + stop) a) (.ok env stop a) := by
  refine ⟨rfl, ?_⟩
  rintro env' stop' a' ⟨⟩
  exact ⟨rfl, h⟩

theorem fail (message : String) (about : Option Nat) :
    Moved u env (.fail (α := α) message (about.map (Text.size u + ·))) (.fail message about) :=
  ⟨rfl, fun _ _ _ h => absurd h (by simp)⟩

end Reply.Moved

/-- **What is done with replies** is compared for the two kinds of replies. -/
theorem Eval.Agree.bindReply {α β γ : Type} {u : Text} {env : Env} {x y : Eval (Reply α)}
    {f : Reply α → Eval β} {g : Reply α → Eval γ} {Q : β → γ → Prop}
    (h : Agree (Reply.Moved u env) x y)
    (hok : ∀ stop a, stop ≤ env.length →
      Agree Q (f (.ok (env.prepend u) (Text.size u + stop) a)) (g (.ok env stop a)))
    (hfail : ∀ message about,
      Agree Q (f (.fail message (about.map (Text.size u + ·)))) (g (.fail message about))) :
    Agree Q (x >>= f) (y >>= g) := by
  refine .bind h fun far near hmoved => ?_
  obtain ⟨rfl, hnear⟩ := hmoved
  cases near with
  | ok env' stop a =>
    obtain ⟨rfl, hstop⟩ := hnear env' stop a rfl
    exact hok stop a hstop
  | fail message about => exact hfail message about

namespace Env.Oblivious

variable {u : Text} {env : Env} {n : Nat}

/-- **Skipping** does not see what stands before, and stays within the subject. -/
theorem skipFrom (henv : env.Oblivious u) (hn : n ≤ env.length) :
    Agree (fun far near => far = Text.size u + near ∧ near ≤ env.length)
      ((env.prepend u).skipFrom (Text.size u + n)) (env.skipFrom n) := by
  have hskip : (env.prepend u).skip = env.skip := rfl
  unfold Env.skipFrom
  rw [hskip]
  cases hs : env.skip with
  | none => exact .pure ⟨rfl, hn⟩
  | some scan =>
    refine .bind (henv.scans scan (.inl hs) env.subject n henv.room hn) fun far near h => ?_
    obtain ⟨rfl, hnear⟩ := h
    cases near with
    | none => exact .pure ⟨rfl, hn⟩
    | some stop =>
      simp only [Option.map_some, Nat.add_le_add_iff_left]
      split
      · exact .pure ⟨rfl, hnear stop rfl⟩
      · exact .pure ⟨rfl, hn⟩

/-- The same keywords may end. -/
theorem mayEndAt (henv : env.Oblivious u) (hn : n ≤ env.length) :
    Agree Eq (Parser.mayEndAt (env.prepend u) (Text.size u + n)) (Parser.mayEndAt env n) := by
  have hfollow : (env.prepend u).follow = env.follow := rfl
  unfold Parser.mayEndAt
  rw [hfollow]
  cases hs : env.follow with
  | none => exact .pure rfl
  | some follow =>
    simp only [length_prepend, Nat.add_le_add_iff_left]
    split
    · exact .pure rfl
    · refine .bind (henv.skipFrom hn) fun far near h => ?_
      obtain ⟨rfl, -⟩ := h
      simp only [Nat.add_lt_add_iff_left]
      split
      · exact .pure rfl
      · refine .bind (henv.scans follow (.inr hs) env.subject n henv.room hn) fun far near h => ?_
        rw [h.1, Option.isSome_map]
        exact .pure rfl

end Env.Oblivious

/-! ## Parsers -/

namespace Parser

variable {α β γ δ : Type} {u : Text}

/-- **The one parser does behind a text what the other does without it.** -/
def MovesTo (u : Text) (p q : Parser α) : Prop :=
  ∀ env n, env.Oblivious u → n ≤ env.length →
    Agree (Reply.Moved u env) (p.run (env.prepend u) (Text.size u + n)) (q.run env n)

/-- **The parser does not see what stands before.** -/
abbrev Oblivious (u : Text) (p : Parser α) : Prop := p.MovesTo u p

/-- A failure where the parser was called. -/
theorem moved_fail_here {env : Env} (message : String) (n : Nat) :
    Reply.Moved (α := α) u env (.fail message (some (Text.size u + n))) (.fail message (some n)) :=
  .fail message (some n)

/-- The scan of a parser that does not see what stands before does not see it. -/
theorem Oblivious.scan {p : Parser α} (hp : p.Oblivious u) : p.scan.Oblivious u := by
  intro subject n hroom hn
  have henv : (Env.new subject).Oblivious u :=
    ⟨hroom, fun s hs => by obtain h | h := hs <;> exact absurd h (by simp [Env.new])⟩
  refine .bindReply (hp _ n henv hn) (fun stop a hstop => .pure ⟨rfl, ?_⟩)
    fun _ _ => .pure ⟨rfl, by simp⟩
  rintro stop' ⟨⟩
  exact hstop

namespace MovesTo

/-! ### Parsers that are not made of others -/

theorem succeed (a : α) : (Parser.succeed a).Oblivious u := fun _ _ _ hn => .pure (.ok hn a)

theorem fail (message : String) : (Parser.fail message : Parser α).Oblivious u :=
  fun _ _ _ _ => .pure (.fail message none)

/-- **A token** looks at the text that is left, and ends within the subject. -/
theorem token {read : Reader} (hread : read.Sound) (message : String) :
    (Parser.token read message).Oblivious u := by
  intro env n henv hn
  refine .bind (henv.skipFrom hn) fun far near h => ?_
  obtain ⟨rfl, -⟩ := h
  rw [Env.from?_prepend]
  cases hfound : (env.from? near).bind read with
  | none => exact .pure (moved_fail_here message n)
  | some m =>
    obtain ⟨rest, hrest, hm⟩ := Option.bind_eq_some_iff.mp hfound
    have hstop : near + m.size ≤ env.length := by
      rw [Match.size, ← Text.size_append]
      exact (Text.IsBoundary.add_size hrest (hread hm)).le_size
    simp only [Nat.add_assoc]
    exact .pure (.ok hstop _)

theorem endWith (message : String) : (Parser.endWith message).Oblivious u := by
  intro env n henv hn
  refine .bind (henv.skipFrom hn) fun far near h => ?_
  obtain ⟨rfl, hnear⟩ := h
  simp only [Env.length_prepend, Nat.add_le_add_iff_left]
  split
  · exact .pure (.ok hnear ())
  · exact .pure (moved_fail_here message n)

theorem bounded {p : Parser String} (hp : p.Oblivious u) (message : String) :
    (p.bounded message).Oblivious u := by
  intro env n henv hn
  refine .bindReply (hp env n henv hn) (fun stop text hstop => ?_)
    fun _ _ => .pure (moved_fail_here message n)
  refine .bind (henv.mayEndAt hstop) fun may may' hmay => ?_
  subst hmay
  split
  · exact .pure (.ok hstop text)
  · exact .bind (.emit _ _) fun _ _ _ => .pure (moved_fail_here message stop)

/-! ### Sequences -/

theorem bind {p q : Parser α} {f g : α → Parser β} (hp : p.MovesTo u q)
    (hf : ∀ a, (f a).MovesTo u (g a)) : (p.bind f).MovesTo u (q.bind g) :=
  fun env n henv hn => .bindReply (hp env n henv hn)
    (fun stop a hstop => hf a env stop henv hstop) fun _ _ => .pure (.fail _ _)

/-- The position that is yielded is moved, and so has to be what is done with it. -/
theorem position_bind {f : Nat → Parser β} (hf : ∀ n, (f (Text.size u + n)).MovesTo u (f n)) :
    (Parser.position.bind f).Oblivious u := by
  intro env n henv hn
  have hrun : ∀ env n, (Parser.position.bind f).run env n = (f n).run env n :=
    fun _ _ => Eval.pure_bind _ _
  rw [hrun, hrun]
  exact hf n env n henv hn

theorem map {p q : Parser α} (f : α → β) (hp : p.MovesTo u q) : (p.map f).MovesTo u (q.map f) := by
  simp only [map_eq_bind]
  exact hp.bind fun a => succeed (f a)

theorem bindMap {p : Parser α} {k : α → Parser β} (f : α → β → γ) (hp : p.Oblivious u)
    (hk : ∀ a, (k a).Oblivious u) : (p.bindMap k f).Oblivious u := by
  rw [bindMap_eq_bind]
  exact hp.bind fun a => (hk a).map (f a)

theorem seqRight {p : Parser α} {q : Parser β} (hp : p.Oblivious u) (hq : q.Oblivious u) :
    (p.seqRight q).Oblivious u :=
  hp.bind fun _ => hq

theorem seqLeft {p : Parser α} {q : Parser β} (hp : p.Oblivious u) (hq : q.Oblivious u) :
    (p.seqLeft q).Oblivious u := by
  rw [seqLeft_eq_bind]
  exact hp.bind fun a => hq.map fun _ => a

/-! ### Parsers that go back -/

theorem firstOf {ps : List (Parser α)} (hps : ∀ p ∈ ps, p.Oblivious u) {env : Env} {n : Nat}
    (henv : env.Oblivious u) (hn : n ≤ env.length) (index : Nat) {far near : Reply α}
    (hfailure : Reply.Moved u env far near) :
    Agree (Reply.Moved u env)
      (Parser.firstOf index far ps (env.prepend u) (Text.size u + n))
      (Parser.firstOf index near ps env n) := by
  induction ps generalizing index far near with
  | nil => exact .pure hfailure
  | cons p ps ih =>
    refine .bindReply (hps p List.mem_cons_self env n henv hn)
      (fun _ a hstop => .pure (.ok hstop a)) fun message about => ?_
    exact .bind (.emit _ _) fun _ _ _ =>
      ih (fun q hq => hps q (List.mem_cons_of_mem p hq)) (index + 1) (.fail message about)

theorem choice {ps : List (Parser α)} (hps : ∀ p ∈ ps, p.Oblivious u) :
    (Parser.choice ps).Oblivious u :=
  fun _ n henv hn => firstOf hps henv hn 0 (moved_fail_here _ n)

theorem orElse {p q : Parser α} (hp : p.Oblivious u) (hq : q.Oblivious u) :
    (p.orElse q).Oblivious u :=
  fun env n henv hn => .bindReply (hp env n henv hn)
    (fun _ a hstop => .pure (.ok hstop a))
    fun _ _ => .bind (.emit _ _) fun _ _ _ => hq env n henv hn

theorem withDefault {p : Parser α} (hp : p.Oblivious u) (default : α) :
    (p.withDefault default).Oblivious u :=
  fun env n henv hn => .bindReply (hp env n henv hn)
    (fun _ a hstop => .pure (.ok hstop a)) fun _ _ => .pure (.ok hn default)

theorem optional {p : Parser α} (hp : p.Oblivious u) : p.optional.Oblivious u :=
  (hp.map some).withDefault none

theorem lookahead {p : Parser α} (hp : p.Oblivious u) : p.lookahead.Oblivious u :=
  fun env n henv hn => .bindReply (hp env n henv hn)
    (fun _ a _ => .pure (.ok hn a)) fun _ _ => .pure (.fail _ _)

theorem notAhead {p : Parser α} (hp : p.Oblivious u) : p.notAhead.Oblivious u :=
  fun env n henv hn => .bindReply (hp env n henv hn)
    (fun _ _ _ => .pure (moved_fail_here _ n)) fun _ _ => .pure (.ok hn ())

theorem filter {p : Parser α} (hp : p.Oblivious u) (accept : α → Bool) :
    (p.filter accept).Oblivious u := by
  intro env n henv hn
  refine .bindReply (hp env n henv hn) (fun stop a hstop => ?_) fun _ _ => .pure (.fail _ _)
  simp only []
  split
  · exact .pure (.ok hstop a)
  · exact .pure (moved_fail_here _ n)

/-- Failures that are changed alike: to the same message, and to be about positions
that belong together. -/
theorem mapFailure {p : Parser α} {f g : String → Option Nat → String × Option Nat}
    (hp : p.Oblivious u) (hf : ∀ message about,
      f message (about.map (Text.size u + ·))
        = ((g message about).1, (g message about).2.map (Text.size u + ·))) :
    (p.mapFailure f).MovesTo u (p.mapFailure g) := by
  intro env n henv hn
  refine .bindReply (hp env n henv hn) (fun _ a hstop => .pure (.ok hstop a))
    fun message about => ?_
  simp only [hf]
  split
  · exact fun _ _ => .fault
  · exact .pure (.fail _ _)

theorem mapMessage {p : Parser α} (hp : p.Oblivious u) (f : String → String) :
    (p.mapMessage f).Oblivious u :=
  hp.mapFailure fun _ _ => rfl

/-! ### Repetition -/

/-- The round behind a text. -/
def prependRound (u : Text) (r : Round δ α) : Round δ α :=
  { r with env := r.env.prepend u, stop := Text.size u + r.stop }

/-- **A round does not see what stands before**, and it advances behind a text if it
advances without it: both ends are positions. -/
theorem round {item : Parser α} {delimiter : Parser δ} (hitem : item.Oblivious u)
    (hdelimiter : delimiter.Oblivious u) {env : Env} {n : Nat} (henv : env.Oblivious u)
    (hn : n ≤ env.length) :
    Agree (fun far near => far = near.map (prependRound u)
        ∧ ∀ r, near = some r → r.env = env ∧ r.stop ≤ env.length)
      (Parser.round item delimiter (env.prepend u) (Text.size u + n))
      (Parser.round item delimiter env n) := by
  have hend : ∀ reason reason', Agree
      (fun far near : Option (Round δ α) => far = near.map (prependRound u)
        ∧ ∀ r, near = some r → r.env = env ∧ r.stop ≤ env.length)
      (Eval.emit reason >>= fun _ => Pure.pure none)
      (Eval.emit reason' >>= fun _ => Pure.pure none) :=
    fun _ _ => .bind (.emit _ _) fun _ _ _ => .pure ⟨rfl, by simp⟩
  refine .bindReply (hdelimiter env n henv hn) (fun middle d hmiddle => ?_) fun _ _ => hend _ _
  refine .bindReply (hitem env middle henv hmiddle) (fun stop a hstop => ?_) fun _ _ => hend _ _
  have hadvances : advances (Text.size u + n) (Text.size u + stop) = advances n stop := by
    have hroom := henv.room
    rw [Bool.eq_iff_iff, advances_eq_true_iff, advances_eq_true_iff]
    omega
  simp only [hadvances]
  split
  · refine .pure ⟨rfl, ?_⟩
    rintro r ⟨⟩
    exact ⟨rfl, hstop⟩
  · exact hend _ _

/-- Chains of rounds, with as many rounds allowed behind the text as without it. -/
theorem rounds {item : Parser α} {delimiter : Parser δ} (hitem : item.Oblivious u)
    (hdelimiter : delimiter.Oblivious u) (left : Nat) {env : Env} {n : Nat}
    (henv : env.Oblivious u) (hn : n ≤ env.length) :
    Agree (fun far near => far = near.map (prependRound u)
        ∧ ∀ r ∈ near, r.env = env ∧ r.stop ≤ env.length)
      (Parser.rounds item delimiter left (env.prepend u) (Text.size u + n))
      (Parser.rounds item delimiter left env n) := by
  induction left generalizing n with
  | zero =>
    unfold Parser.rounds
    refine .bind (round hitem hdelimiter henv hn) fun far near h => ?_
    obtain ⟨rfl, -⟩ := h
    cases near <;> exact .pure ⟨rfl, by simp⟩
  | succ left ih =>
    unfold Parser.rounds
    refine .bind (round hitem hdelimiter henv hn) fun far near h => ?_
    obtain ⟨rfl, hnear⟩ := h
    cases near with
    | none => exact .pure ⟨rfl, by simp⟩
    | some r =>
      obtain ⟨rfl, hstop⟩ := hnear r rfl
      refine .bind (ih hstop) fun far near h => ?_
      obtain ⟨rfl, hchain⟩ := h
      exact .pure ⟨rfl, List.forall_mem_cons.mpr ⟨⟨rfl, hstop⟩, hchain⟩⟩

/-- Chains that belong together end in replies that belong together. -/
theorem chain_reply {env : Env} {n : Nat} (hn : n ≤ env.length) (a : α)
    {chain : List (Round δ α)} (hchain : ∀ r ∈ chain, r.env = env ∧ r.stop ≤ env.length) :
    Reply.Moved u env (Round.reply (env.prepend u) (Text.size u + n) (chain.map (prependRound u)) a)
      (Round.reply env n chain a) := by
  induction chain generalizing n with
  | nil => exact .ok hn a
  | cons r chain ih =>
    obtain ⟨⟨rfl, hstop⟩, hrest⟩ := List.forall_mem_cons.mp hchain
    exact ih hstop hrest

theorem foldLeft_map (f : α → δ → α → α) (first : α) (chain : List (Round δ α)) :
    Round.foldLeft f first (chain.map (prependRound u)) = Round.foldLeft f first chain :=
  List.foldl_map

theorem foldRight_map (f : α → δ → α → α) (first : α) (chain : List (Round δ α)) :
    Round.foldRight f first (chain.map (prependRound u)) = Round.foldRight f first chain := by
  induction chain generalizing first with
  | nil => rfl
  | cons r chain ih => exact congrArg (f first r.delimiter) (ih r.item)

/-- **Repetitions** whose value is made of the items and delimiters alone. Behind the
text fewer rounds are allowed, but as many as there are positions left. -/
theorem repetition {item : Parser α} {delimiter : Parser δ} (hitem : item.Oblivious u)
    (hdelimiter : delimiter.Oblivious u) (value : α → List (Round δ α) → α)
    (hvalue : ∀ first chain, value first (chain.map (prependRound u)) = value first chain) :
    (Parser.repetition item delimiter value).Oblivious u := by
  intro env n henv hn
  refine .bindReply (hitem env n henv hn) (fun stop first hstop => ?_) fun _ _ => .pure (.fail _ _)
  have hleft : Parser.rounds item delimiter (maxPosition - (Text.size u + stop)) (env.prepend u)
      (Text.size u + stop)
      = Parser.rounds item delimiter (maxPosition - stop) (env.prepend u) (Text.size u + stop) :=
    rounds_eq_of_room (Nat.le_refl _) (by omega)
  simp only [hleft]
  refine .bind (rounds hitem hdelimiter _ henv hstop) fun far near h => ?_
  obtain ⟨rfl, hchain⟩ := h
  rw [hvalue]
  exact .pure (chain_reply hstop _ hchain)

theorem foldSep {item : Parser α} {delimiter : Parser δ} (hitem : item.Oblivious u)
    (hdelimiter : delimiter.Oblivious u) (f : α → δ → α → α) :
    (item.foldSep delimiter f).Oblivious u := by
  rw [foldSep_eq_repetition]
  exact hitem.repetition hdelimiter _ (foldLeft_map f)

theorem foldSepRight {item : Parser α} {delimiter : Parser δ} (hitem : item.Oblivious u)
    (hdelimiter : delimiter.Oblivious u) (f : α → δ → α → α) :
    (item.foldSepRight delimiter f).Oblivious u := by
  rw [foldSepRight_eq_repetition]
  exact hitem.repetition hdelimiter _ (foldRight_map f)

theorem foldMany1 {item : Parser α} (hitem : item.Oblivious u) (f : α → α → α) :
    (item.foldMany1 f).Oblivious u :=
  hitem.foldSep (token (.exact _) _) _

theorem foldMany {item : Parser α} (hitem : item.Oblivious u) (f : α → α → α) (default : α) :
    (item.foldMany f default).Oblivious u :=
  (hitem.foldMany1 f).withDefault default

/-! ### Other environments, other texts and recursive grammars -/

/-- What changes environments has to do behind a text what it does without it. -/
theorem inEnv {p : Parser α} {change : Env → Env} (hp : p.Oblivious u)
    (hchange : ∀ env, env.Oblivious u → (change env).Oblivious u
      ∧ change (env.prepend u) = (change env).prepend u ∧ (change env).length = env.length) :
    (p.inEnv change).Oblivious u := by
  intro env n henv hn
  obtain ⟨henv', hprepend, hlength⟩ := hchange env henv
  show Agree _
    (p.run (change (env.prepend u)) (Text.size u + n) >>= fun r =>
      Pure.pure (r.rebase (env.prepend u)))
    (p.run (change env) n >>= fun r => Pure.pure (r.rebase env))
  rw [hprepend]
  refine .bindReply (hp _ n henv' (hlength ▸ hn)) (fun stop a hstop => ?_) fun message about => ?_
  · exact .pure (.ok (hlength ▸ hstop) a)
  · exact .pure (.fail message about)

/-- Over another text nothing stands before, so both runs are the same. -/
theorem onText (p : Parser α) (subject : Text) : (p.onText subject).Oblivious u := by
  intro env n henv hn
  refine .bind_same fun reply => ?_
  cases reply with
  | ok env' stop a => exact .pure (.ok hn a)
  | fail message about => exact .pure (moved_fail_here message n)

theorem fresh {build : Nat → Except Fault (Parser α)}
    (hbuild : ∀ scope p, build scope = .ok p → p.Oblivious u) :
    (Parser.fresh build).Oblivious u := by
  intro env n henv hn
  refine .bind_same fun scope => .bind (.ofExcept _) fun p q h => ?_
  obtain ⟨rfl, hp⟩ := h
  exact .bind (hbuild scope p hp env n henv hn) fun _ _ hreply =>
    .bind_same fun _ => .pure hreply

/-- **A recursive grammar does not see what stands before if its rules do not**, given
handles that do not. Both runs have the same to spend, and the induction is on the
calls that are left. -/
theorem entry {ι : Type} {τ : ι → Type} {grammar : Knot τ}
    (hrules : ∀ handles : Parsers τ, (∀ j, (handles j).Oblivious u) →
      ∀ i p, grammar.rule i handles = .ok p → p.Oblivious u) (i : ι) :
    (grammar.entry i).Oblivious u := by
  have hcall : ∀ budget i, (⟨grammar.call budget i⟩ : Parser (τ i)).Oblivious u := by
    intro budget
    induction budget with
    | zero => exact fun _ _ _ _ _ _ _ => .exhausted
    | succ budget ih =>
      intro i env n henv hn
      refine .bind_same fun _ => .bind (.ofExcept _) fun p q h => ?_
      obtain ⟨rfl, hp⟩ := h
      refine .withBudget (hrules _ (fun j env n henv hn => ?_) i p hp env n henv hn)
      exact .bind_same fun _ => ih j env n henv hn
  exact fun env n henv hn => .bind_same fun budget => hcall budget i env n henv hn

end MovesTo

end Parser

/-! ## Literals and other primitives -/

namespace Literal

open Descent.Parser

variable {u : Text}

theorem Oblivious.digits (pattern : String) (accept : Char → Bool) (base : Nat) :
    (digits pattern accept base).Oblivious u := by
  refine .bind (.token (.run1 accept) _) fun text => ?_
  by_cases hfits : valueIn base text.toList ≤ maxMagnitude
  · simp only [if_pos hfits]
    exact .succeed _
  · simp only [if_neg hfits]
    exact .fail _

theorem Oblivious.magnitude (format : NumberFormat) : (magnitude format).Oblivious u := by
  have marked : ∀ {marker : String} {p : Parser Nat}, p.Oblivious u →
      ((Parser.string marker).seqRight p).Oblivious u :=
    fun hp => .seqRight (.token (.exact _) _) hp
  exact magnitude_induction .orElse (marked (Oblivious.digits _ _ _))
    (marked (Oblivious.digits _ _ _)) (marked (Oblivious.digits _ _ _)) (Oblivious.digits _ _ _)
    format

/-- **A number literal** tells its parts where it began, and its failures are about
that position: behind the text both are moved. -/
theorem Oblivious.number (format : NumberFormat) : (number format).Oblivious u := by
  refine .position_bind fun n => .bind (.withDefault (.token (.exact _) _) _) fun _ => .map _ ?_
  have hmagnitude : ((Literal.magnitude format).mapMessageAt (fun _ => numberMessage)
        fun _ => Text.size u + n).MovesTo u
      ((Literal.magnitude format).mapMessageAt (fun _ => numberMessage) fun _ => n) :=
    .mapFailure (Oblivious.magnitude format) fun _ _ => rfl
  exact .bind hmagnitude fun _ => .succeed _

theorem Oblivious.decoded {read : Reader} (hread : read.Sound) (pattern : String)
    (meaning : Text → Option Text) : (decoded read pattern meaning).Oblivious u := by
  intro env n henv hn
  have htoken : (Parser.token read ("Does not match pattern " ++ pattern)).Oblivious u :=
    .token hread _
  refine .bindReply (htoken env n henv hn) (fun stop text hstop => ?_) fun _ _ => .pure (.fail _ _)
  simp only []
  split
  · exact .pure (.ok hstop _)
  · exact .pure (moved_fail_here _ n)

theorem Oblivious.fragment (quote : Char) (escape : Escape) (format : StringFormat) :
    (fragment quote escape format).Oblivious u :=
  fragment_induction .orElse (fun form => Oblivious.decoded (.codeForm form) _ _)
    (Oblivious.decoded .pairReader _ _) (.map _ (.token (.run1 _) _))

theorem Oblivious.quotedWith (quote : Char) (escape : Escape) (format : StringFormat)
    (message : String) : (quotedWith quote escape format message).Oblivious u := by
  have hquote : (Parser.string (String.singleton quote)).Oblivious u := .token (.exact _) _
  have hbody : (body quote escape format).Oblivious u := by
    refine .inEnv (.seqLeft (.foldMany (Oblivious.fragment quote escape format) _ _) hquote)
      fun env henv => ⟨⟨henv.room, ?_⟩, rfl, rfl⟩
    rintro s (hs | hs)
    · exact absurd hs (by simp [Env.withoutSkip, Env.withSkip])
    · exact henv.scans s (.inr hs)
  exact .mapMessage (.map _ (hquote.seqRight hbody)) _

end Literal

/-- The primitive neither yields positions nor moves to them. -/
def Primitive.IsRelative : {α : Type} → Primitive α → Prop
  | _, position => False
  | _, moveTo _ => False
  | _, _ => True

/-- **No other primitive sees what stands before.** -/
theorem Primitive.oblivious {α : Type} {p : Primitive α} (hp : p.IsRelative) (u : Text) :
    p.parser.Oblivious u := by
  cases p with
  | string => exact .token (.exact _) _
  | ignoreCase => exact .token (.sameLetters _) _
  | pattern text message p valid =>
    obtain ⟨program, rfl⟩ := Parser.exists_matching valid
    exact .token (.find? program) message
  | atEnd => exact .endWith _
  | real message =>
    refine .bind (.token .real message) fun text => ?_
    cases Decimal.value? text.toList with
    | none => exact .fail _
    | some x => exact .succeed x
  | key => exact .bounded (.token (.exact _) _) _
  | keyIgnoreCase => exact .bounded (.token (.sameLetters _) _) _
  | number => exact Literal.Oblivious.number _
  | quoted => exact Literal.Oblivious.quotedWith _ _ _ _
  | javaIdentifier => exact .token .identifierReader _
  | succeed => exact .succeed _
  | fail => exact .fail _
  | position => exact hp.elim
  | moveTo => exact hp.elim

/-! ## Whatever is built -/

/-- A step in making an environment from another of the same subject. The scans of
some parsers are there to be put into it. -/
inductive Env.Adjustment (J : Type) where
  | withSkip (skip : Option J)
  | withFollow (follow : Option J)
  | withoutSkip
  | bare

/-- The environment after a step. -/
def Env.Adjustment.apply {J : Type} (scans : J → Scan) : Env.Adjustment J → Env → Env
  | withSkip skip, env => env.withSkip (skip.map scans)
  | withFollow follow, env => env.withFollow (follow.map scans)
  | withoutSkip, env => env.withoutSkip
  | bare, env => env.bare

/-- The environment after some steps, one after the other. -/
def Env.adjust {J : Type} (scans : J → Scan) (steps : List (Env.Adjustment J)) (env : Env) : Env :=
  steps.foldl (fun env step => step.apply scans env) env

namespace Env.Oblivious

variable {J : Type} {u : Text} {scans : J → Scan}

/-- **Steps do not see what stands before**: they neither look at the subject nor
change it. -/
theorem apply (hscans : ∀ j, (scans j).Oblivious u) (step : Env.Adjustment J) {env : Env}
    (henv : env.Oblivious u) : (step.apply scans env).Oblivious u := by
  have hgiven : ∀ {given : Option J} {s : Scan}, given.map scans = some s → s.Oblivious u := by
    intro given s hs
    obtain ⟨j, -, rfl⟩ := Option.map_eq_some_iff.mp hs
    exact hscans j
  refine ⟨by cases step <;> exact henv.room, ?_⟩
  rintro s (hs | hs)
  · cases step with
    | withSkip skip => exact hgiven hs
    | withFollow follow => exact henv.scans s (.inl hs)
    | withoutSkip => exact absurd hs (by simp [Adjustment.apply, withoutSkip, withSkip])
    | bare => exact absurd hs (by simp [Adjustment.apply, bare, new])
  · cases step with
    | withSkip skip => exact henv.scans s (.inr hs)
    | withFollow follow => exact hgiven hs
    | withoutSkip => exact henv.scans s (.inr hs)
    | bare => exact absurd hs (by simp [Adjustment.apply, bare, new])

theorem adjust (hscans : ∀ j, (scans j).Oblivious u) (steps : List (Env.Adjustment J)) {env : Env}
    (henv : env.Oblivious u) : (env.adjust scans steps).Oblivious u
      ∧ (env.prepend u).adjust scans steps = (env.adjust scans steps).prepend u
      ∧ (env.adjust scans steps).length = env.length := by
  induction steps generalizing env with
  | nil => exact ⟨henv, rfl, rfl⟩
  | cons step steps ih =>
    obtain ⟨hafter, hprepend, hlength⟩ := ih (henv.apply hscans step)
    have hstep : step.apply scans (env.prepend u) = (step.apply scans env).prepend u := by
      cases step <;> rfl
    refine ⟨hafter, ?_, ?_⟩
    · exact (congrArg (·.adjust scans steps) hstep).trans hprepend
    · exact hlength.trans (by cases step <;> rfl)

end Env.Oblivious

namespace Construction

/-- No position is asked for, moved to or put into a failure, nothing is written by
hand, and environments are made in steps that keep the subject. -/
def Policy.oblivious : Policy where
  primitive := Primitive.IsRelative
  relocation := False
  change f := ∃ steps, ∀ scans env, f scans env = pure (env.adjust scans steps)

/-- **Whatever is built does not see what stands before.** -/
theorem isOblivious {V : Type} {Γ : V → Type} {α : Type} (c : Construction Γ α)
    (hc : c.Obeys .oblivious) {u : Text} {handles : Parsers Γ}
    (hh : ∀ v, (handles v).Oblivious u) : (c.parser handles).Oblivious u := by
  induction c with
  | handle v => exact hh v
  | primitive p => exact p.oblivious hc u
  | own p => exact hc.elim
  | unbuilt cause => exact .fresh fun _ _ h => absurd h (by simp)
  | map f p ih => exact .map f (ih hc hh)
  | bind p k ihp ihk => exact .bind (ihp hc.1 hh) fun a => ihk a (hc.2 a) hh
  | bindMap p k f ihp ihk => exact .bindMap f (ihp hc.1 hh) fun a => ihk a (hc.2 a) hh
  | seqRight p q ihp ihq => exact .seqRight (ihp hc.1 hh) (ihq hc.2 hh)
  | seqLeft p q ihp ihq => exact .seqLeft (ihp hc.1 hh) (ihq hc.2 hh)
  | choice ps ih =>
    refine .choice fun p hp => ?_
    obtain ⟨i, rfl⟩ := List.mem_ofFn.mp hp
    exact ih i (hc i) hh
  | orElse p q ihp ihq => exact .orElse (ihp hc.1 hh) (ihq hc.2 hh)
  | withDefault p default ih => exact .withDefault (ih hc hh) default
  | optional p ih => exact .optional (ih hc hh)
  | lookahead p ih => exact .lookahead (ih hc hh)
  | notAhead p ih => exact .notAhead (ih hc hh)
  | filter p accept ih => exact .filter (ih hc hh) accept
  | mapMessage p f ih => exact .mapMessage (ih hc hh) f
  | mapMessageAt p f g ih => exact hc.1.elim
  | withMessage p message ih => exact .mapMessage (ih hc hh) _
  | foldSep item delimiter f ihi ihd => exact .foldSep (ihi hc.1 hh) (ihd hc.2 hh) f
  | foldSepRight item delimiter f ihi ihd => exact .foldSepRight (ihi hc.1 hh) (ihd hc.2 hh) f
  | foldMany1 item f ih => exact .foldMany1 (ih hc hh) f
  | foldMany item f default ih => exact .foldMany (ih hc hh) f default
  | inEnv p scanners change ihp ihs =>
    obtain ⟨steps, hsteps⟩ := hc.2.2
    have hscans := fun j => (ihs j (hc.2.1 j) hh).scan
    show Parser.Oblivious u
      ((p.parser handles).inEnvM (change fun j => ((scanners j).parser handles).scan))
    rw [funext (hsteps _), ← inEnv_eq_inEnvM]
    exact .inEnv (ihp hc.1 hh) fun env henv => henv.adjust hscans steps
  | onText p subject => exact .onText _ _
  | fresh build ih =>
    exact .fresh fun scope p hp => Except.ok.inj hp ▸ ih scope (hc scope) hh
  | recursive name order rules i ih =>
    refine .entry (fun inner hinner i p hp => Except.ok.inj hp ▸ ih i (hc i) fun v => ?_) i
    -- a handle of a rule is one of its surroundings, or one of the grammar
    cases v with
    | inl v => exact hh v
    | inr j => exact hinner j

end Construction

/-- What a built environment skips does not see what stands before. -/
theorem Env.BuiltBy.isOblivious {env : Env} (h : env.BuiltBy .oblivious) {u : Text}
    (hroom : Text.size u + env.length ≤ maxPosition) : env.Oblivious u := by
  refine ⟨hroom, fun s hs => ?_⟩
  obtain ⟨β, c, hc, rfl⟩ := h s hs
  exact (c.isOblivious hc fun v => v.elim).scan

/-- Both runs begin where their subjects can be read. -/
theorem Parser.Oblivious.runIn {α : Type} {u : Text} {p : Parser α} (hp : p.Oblivious u) {env : Env}
    (henv : env.Oblivious u) :
    Agree (fun far near => far = near.map (Reply.prepend u))
      (p.runIn (env.prepend u) (Text.size u)) (p.runIn env 0) := by
  have hfar : (env.prepend u).from? (Text.size u) = some env.subject :=
    Text.from?_size_append u env.subject
  have hnear : env.from? 0 = some env.subject := Text.from?_zero env.subject
  refine .bind (.emit _ _) fun _ _ _ => ?_
  simp only [hfar, hnear, Env.length_prepend, Nat.not_lt.mpr (Nat.le_add_right _ _),
    Nat.not_lt_zero, Option.isNone_some, Bool.false_eq_true, if_false]
  refine .bind (hp env 0 henv (Nat.zero_le _)) fun far near h => ?_
  obtain ⟨rfl, -⟩ := h
  exact .bind (.emit _ _) fun _ _ _ => .pure rfl

namespace Construction

/-- **What stands before is not seen.** No position is asked for, moved to or put
into a failure, environments are made in steps that keep the subject, and what is
skipped and what may follow a keyword are built so too. Then a run that starts
behind a text returns exactly if the run from the beginning without that text does;
and with the same reply, where every position is moved by the size of the text. Both
are one subject, so that its size is a position. -/
theorem runIn_prepend {α : Type} (c : Closed α) (hc : c.Obeys .oblivious) (u v : Text)
    {skip follow : Option Scan} (henv : (Env.mk v skip follow).BuiltBy .oblivious)
    (hroom : Text.size (u ++ v) ≤ maxPosition) (budget : Nat) (k k' : Knots)
    (result : RunResult α) :
    (∃ log, c.toParser.runIn ⟨u ++ v, skip, follow⟩ (Text.size u) budget k = .done result log k')
      ↔ ∃ near, result = near.map (Reply.prepend u)
          ∧ ∃ log, c.toParser.runIn ⟨v, skip, follow⟩ 0 budget k = .done near log k' := by
  have hp : c.toParser.Oblivious u := c.isOblivious hc fun v => v.elim
  rw [Text.size_append] at hroom
  exact (hp.runIn (henv.isOblivious hroom)).done_iff

/-- A number in parentheses. -/
def parenthesized : Closed Int :=
  .recursive ⟨0, []⟩ [()] (fun _ => .orElse (.primitive (.number {}))
    (.seqRight (.primitive (.string "(" "no parenthesis"))
      (.seqLeft (.handle (Sum.inr ())) (.primitive (.string ")" "not closed"))))) ()

/-- Behind an accented letter the parentheses end two bytes later. -/
theorem runIn_prepend_parenthesized :
    let skip := some (Parser.string " ").scan
    let near : Env := ⟨['(', ' ', '7', ')'], skip, none⟩
    parenthesized.Obeys .oblivious ∧ near.BuiltBy .oblivious
    ∧ ∃ log k', parenthesized.toParser.runIn (near.prepend ['é']) 2 4 .initial
        = .done (.ok (.ok (near.prepend ['é']) 6 7)) log k' := by
  intro skip near
  have hc : parenthesized.Obeys .oblivious := fun _ => ⟨trivial, trivial, trivial, trivial⟩
  have henv : near.BuiltBy .oblivious := by
    rintro s (h | h)
    · exact ⟨String, .primitive (.string " " ("Does not match " ++ " ")), trivial,
        (Option.some.inj h).symm⟩
    · exact absurd h (by simp [near])
  have hnear : ∃ log k', parenthesized.toParser.runIn near 0 4 .initial
      = .done (.ok (.ok near 4 7)) log k' := ⟨_, _, rfl⟩
  obtain ⟨log, k', hdone⟩ := hnear
  obtain ⟨log', hfar⟩ := (runIn_prepend parenthesized hc ['é'] near.subject henv (by decide) 4
    .initial k' _).mpr ⟨_, rfl, log, hdone⟩
  exact ⟨hc, henv, log', k', hfar⟩

end Construction

end Descent
