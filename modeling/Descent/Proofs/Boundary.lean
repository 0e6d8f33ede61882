import Descent.Proofs.Construction
import Descent.Proofs.Evaluation
import Descent.Proofs.Real
import Descent.Proofs.Rounds
import Descent.Parser.Run

/-!
# Positions stay on character boundaries

Positions are plain numbers and nothing checks them during a run. This module
proves that nothing has to: a parser that the library builds, started at a
boundary of the subject, ends at a boundary and reports its failures at one.

The invariant is `Reply.Sound`. It holds the reply to the subject that the
parser was called on – a success hands on an environment *of the same subject*
– because a position says nothing without the text it is a position of. Two
kinds of parsers could break it. Those that go back to a position need that
position to be one of the same text, which they have from where they began.
Those that change the text (`Parser.onText`) forget every position that was
found in it.

A reader answers with text, so where a token ends is the size of an initial
segment of the subject whatever its reader found (`Reader.Sound`); that holds
of compiled patterns too, and nothing of how they are matched is used.
-/

namespace Descent

/-! ## Boundaries -/

namespace Text

variable {n : Nat} {cs rest t : Text}

/-- The offsets where text is found are boundaries. -/
theorem IsBoundary.of_from? (h : from? n cs = some rest) : IsBoundary n cs := by
  rw [IsBoundary, h, Option.isSome_some]

/-- **A boundary is the size of an initial segment.** -/
theorem isBoundary_iff : IsBoundary n cs ↔ ∃ a rest, cs = a ++ rest ∧ size a = n := by
  constructor
  · intro h
    obtain ⟨rest, hrest⟩ := Option.isSome_iff_exists.mp h
    obtain ⟨a, ha, hn⟩ := eq_append_of_from? hrest
    exact ⟨a, rest, ha, hn⟩
  · rintro ⟨a, rest, rfl, rfl⟩
    exact .of_from? (from?_size_append a rest)

/-- No boundary lies beyond the end. -/
theorem IsBoundary.le_size (h : IsBoundary n cs) : n ≤ size cs := by
  obtain ⟨a, rest, rfl, rfl⟩ := isBoundary_iff.mp h
  rw [size_append]
  exact Nat.le_add_right _ _

/-- Reading a text from a boundary leads to a boundary. -/
theorem IsBoundary.add_size (h : from? n cs = some rest) (ht : t <+: rest) :
    IsBoundary (n + size t) cs := by
  obtain ⟨a, rfl, rfl⟩ := eq_append_of_from? h
  obtain ⟨rest', rfl⟩ := ht
  exact isBoundary_iff.mpr ⟨a ++ t, rest', by rw [List.append_assoc], size_append a t⟩

/-- What is dropped exactly is an initial segment. -/
theorem isPrefix_of_dropExact? {e : Text} (h : dropExact? e cs = some rest) : e <+: cs :=
  ⟨rest, (dropExact?_eq_some_iff.mp h).symm⟩

end Text

/-! ## Readers answer with initial segments -/

/-- What the reader passes over and matches is an initial segment of what is left. -/
def Reader.Sound (read : Reader) : Prop :=
  ∀ ⦃rest m⦄, read rest = some m → m.passed ++ m.text <+: rest

namespace Reader

theorem Sound.exact (expected : Text) : Sound (Reader.exact expected) := by
  intro rest m h
  obtain ⟨rest', hdrop, rfl⟩ := Option.map_eq_some_iff.mp h
  exact Text.isPrefix_of_dropExact? hdrop

theorem Sound.sameLetters (expected : Text) : Sound (Reader.sameLetters expected) := by
  intro rest m h
  unfold Reader.sameLetters at h
  simp only [Option.ite_none_right_eq_some, Option.some.injEq] at h
  rw [← h.2]
  exact List.take_prefix _ _

theorem Sound.run1 (accept : Char → Bool) : Sound (Reader.run1 accept) := by
  intro rest m h
  unfold Reader.run1 at h
  split at h
  · exact absurd h (by simp)
  · rw [← Option.some.inj h]
    exact List.takeWhile_prefix _

/-- The two cuts of a match are one initial segment, in whatever order its ends
were found. -/
theorem Sound.find? (p : Regex.Program) : Sound p.find? := by
  intro rest m h
  obtain ⟨⟨start, stop⟩, -, rfl⟩ := Option.map_eq_some_iff.mp h
  show rest.take start ++ (rest.drop start).take (stop - start) <+: rest
  rw [← List.take_add]
  exact List.take_prefix _ _

theorem Sound.real : Sound Reader.real := by
  intro rest m h
  obtain ⟨s, hs, rfl⟩ := Option.map_eq_some_iff.mp h
  exact Decimal.text_isPrefix_of_spelling? hs

theorem Sound.identifierReader : Sound Literal.identifierReader := by
  intro rest m h
  unfold Literal.identifierReader at h
  split at h
  · exact absurd h (by simp)
  · next c cs =>
    simp only [Option.ite_none_right_eq_some, Option.some.injEq] at h
    rw [← h.2]
    exact List.cons_prefix_cons.mpr ⟨rfl, List.takeWhile_prefix _⟩

theorem Sound.pairReader : Sound Literal.pairReader := by
  intro rest m h
  unfold Literal.pairReader at h
  split at h
  · next c cs =>
    simp only [Option.ite_none_left_eq_some, Option.some.injEq] at h
    rw [← h.2]
    exact ⟨cs, rfl⟩
  · exact absurd h (by simp)

end Reader

namespace Literal

/-- The digits of a form are the first ones that stand there. -/
theorem digits_isPrefix (form : CodeForm) (rest : Text) : form.digits rest <+: rest := by
  cases rest with
  | nil =>
    unfold CodeForm.digits
    cases form.most with
    | none => exact List.nil_prefix
    | some n => exact List.take_prefix n []
  | cons c cs =>
    have hrun : (if form.isFirst c then c :: cs.takeWhile form.isDigit else []) <+: c :: cs := by
      by_cases hfirst : form.isFirst c = true
      · rw [if_pos hfirst]
        exact List.cons_prefix_cons.mpr ⟨rfl, List.takeWhile_prefix _⟩
      · rw [if_neg hfirst]
        exact List.nil_prefix
    unfold CodeForm.digits
    cases form.most with
    | none => exact hrun
    | some n => exact (List.take_prefix n _).trans hrun

end Literal

/-- An escape by number is its opening, its digits and its closing. -/
theorem Reader.Sound.codeForm (form : CodeForm) : Reader.Sound form.reader := by
  intro cs m h
  obtain ⟨digits, hd, rfl⟩ := Option.map_eq_some_iff.mp h
  simp only [CodeForm.digits?, bind, Option.bind_eq_some_iff] at hd
  obtain ⟨rest, hopen, hd⟩ := hd
  simp only [Option.ite_none_left_eq_some, Option.bind_eq_some_iff] at hd
  obtain ⟨-, left, hclose, heq⟩ := hd
  obtain rfl := Option.some.inj heq
  have hdigits := Literal.digits_isPrefix form rest
  -- what is dropped before the closing is what was taken as digits
  generalize form.digits rest = digits at hclose hdigits ⊢
  obtain ⟨after, rfl⟩ := hdigits
  rw [List.drop_left] at hclose
  refine ⟨left, ?_⟩
  show form.opening ++ digits ++ form.closing ++ left = cs
  rw [Text.dropExact?_eq_some_iff.mp hopen, List.append_assoc, List.append_assoc,
    ← Text.dropExact?_eq_some_iff.mp hclose]

/-! ## Scans, environments and replies -/

/-- From a boundary the scan ends at a boundary. -/
def Scan.Sound (scan : Scan) : Prop :=
  ∀ ⦃subject n⦄, Text.IsBoundary n subject →
    (scan subject n).Ensures fun stop => ∀ m, stop = some m → Text.IsBoundary m subject

/-- What the environment skips, and what may follow a keyword, ends at boundaries. -/
def Env.Sound (env : Env) : Prop :=
  ∀ s, env.skip = some s ∨ env.follow = some s → s.Sound

/-- **The reply is about boundaries of the subject**: a success ends at one and
hands on an environment of the same subject. A failure is about one where
`strict` holds; otherwise nothing is said of it. -/
def Reply.Sound {α : Type} (strict : Prop) (subject : Text) : Reply α → Prop
  | .ok env stop _ => env.subject = subject ∧ env.Sound ∧ Text.IsBoundary stop subject
  | .fail _ about => strict → ∀ m, about = some m → Text.IsBoundary m subject

theorem Env.Sound.new (subject : Text) : (Env.new subject).Sound := by
  rintro s (h | h) <;> exact absurd h (by simp [Env.new])

/-- **Skipping leads from boundaries to boundaries.** -/
theorem Env.Sound.skipFrom {env : Env} (henv : env.Sound) {n : Nat}
    (hn : Text.IsBoundary n env.subject) :
    (env.skipFrom n).Ensures fun start => Text.IsBoundary start env.subject := by
  unfold Env.skipFrom
  cases hskip : env.skip with
  | none => exact .pure hn
  | some scan =>
    refine .bind (henv scan (.inl hskip) hn) fun stop hstop => ?_
    cases stop with
    | none => exact .pure hn
    | some m =>
      refine .pure ?_
      split
      · exact hstop m rfl
      · exact hn

namespace Parser

variable {α β γ δ : Type} {strict : Prop} {subject : Text}

/-- **The parser keeps to the boundaries of a subject.** -/
def SoundOn (strict : Prop) (subject : Text) (p : Parser α) : Prop :=
  ∀ ⦃env n⦄, env.subject = subject → env.Sound → Text.IsBoundary n subject →
    (p.run env n).Ensures (Reply.Sound strict subject)

/-- A failure where the parser was called is about a boundary. -/
theorem sound_fail_here {n : Nat} (hn : Text.IsBoundary n subject) (message : String) :
    (Reply.fail (α := α) message (some n)).Sound strict subject := by
  intro _ m hm
  exact Option.some.inj hm ▸ hn

namespace SoundOn

/-- Going on after a success, and ending with a failure. -/
theorem match_ensures {p : Parser α} {env : Env} {n : Nat} {f : Env → Nat → α → Eval β}
    {g : String → Option Nat → Eval β} {Q : β → Prop}
    (hp : (p.run env n).Ensures (Reply.Sound strict subject))
    (hok : ∀ env' stop a, env'.subject = subject → env'.Sound → Text.IsBoundary stop subject →
      (f env' stop a).Ensures Q)
    (hfail : ∀ message about, (Reply.fail (α := α) message about).Sound strict subject →
      (g message about).Ensures Q) :
    (do match ← p.run env n with
        | .ok env' stop a => f env' stop a
        | .fail message about => g message about).Ensures Q := by
  refine .bind hp fun reply hreply => ?_
  cases reply with
  | ok env' stop a => exact hok env' stop a hreply.1 hreply.2.1 hreply.2.2
  | fail message about => exact hfail message about hreply

theorem succeed (a : α) : SoundOn strict subject (Parser.succeed a) :=
  fun _ _ hs henv hn => .pure ⟨hs, henv, hn⟩

theorem fail (message : String) : SoundOn strict subject (Parser.fail (α := α) message) :=
  fun _ _ _ _ _ => .pure fun _ _ hm => absurd hm (by simp)

theorem position : SoundOn strict subject Parser.position :=
  fun _ _ hs henv hn => .pure ⟨hs, henv, hn⟩

/-- A move is checked against the subject. -/
theorem moveTo (target : Nat) : SoundOn strict subject (Parser.moveTo target) := by
  intro env n hs henv hn
  unfold Parser.moveTo
  simp only []
  split
  · next h => exact .pure ⟨hs, henv, hs ▸ h⟩
  · exact .pure (sound_fail_here hn _)

/-- **A token ends where a character ends.** -/
theorem token {read : Reader} (hread : read.Sound) (message : String) :
    SoundOn strict subject (Parser.token read message) := by
  rintro env n rfl henv hn
  refine .bind (henv.skipFrom hn) fun start hstart => ?_
  obtain ⟨rest, hrest⟩ := Option.isSome_iff_exists.mp hstart
  cases hm : (env.from? start).bind read with
  | none => exact .pure (sound_fail_here hn _)
  | some m =>
    refine .pure ⟨rfl, henv, ?_⟩
    rw [Env.from?, hrest, Option.bind_some] at hm
    show Text.IsBoundary (start + (Text.size m.passed + Text.size m.text)) env.subject
    rw [← Text.size_append]
    exact .add_size hrest (hread hm)

theorem endWith (message : String) : SoundOn strict subject (Parser.endWith message) := by
  rintro env n rfl henv hn
  refine .bind (henv.skipFrom hn) fun start hstart => ?_
  split
  · exact .pure ⟨rfl, henv, hstart⟩
  · exact .pure (sound_fail_here hn _)

/-- Where a keyword goes on, the failure is about the end of the token. -/
theorem bounded {p : Parser String} (hp : SoundOn strict subject p) (message : String) :
    SoundOn strict subject (p.bounded message) := by
  intro env n hs henv hn
  refine .bind (hp hs henv hn) fun reply hreply => ?_
  cases reply with
  | fail => exact .pure (sound_fail_here hn _)
  | ok env' stop a =>
    refine .bind_any fun may => ?_
    split
    · exact .pure hreply
    · exact .bind_any fun _ => .pure (sound_fail_here hreply.2.2 _)

theorem bind {p : Parser α} {f : α → Parser β} (hp : SoundOn strict subject p)
    (hf : ∀ a, SoundOn strict subject (f a)) : SoundOn strict subject (p.bind f) :=
  fun _ _ hs henv hn => match_ensures (hp hs henv hn)
    (fun _ _ a hs' henv' hstop => hf a hs' henv' hstop) (fun _ _ h => .pure h)

/-- The position that is yielded is a boundary. -/
theorem position_bind {f : Nat → Parser β}
    (hf : ∀ n, Text.IsBoundary n subject → SoundOn strict subject (f n)) :
    SoundOn strict subject (Parser.position.bind f) := by
  intro env n hs henv hn
  show ((Pure.pure (Reply.ok env n n) : Eval (Reply Nat)) >>= _).Ensures _
  rw [Eval.pure_bind]
  exact hf n hn hs henv hn

theorem map {p : Parser α} (f : α → β) (hp : SoundOn strict subject p) :
    SoundOn strict subject (p.map f) := by
  rw [map_eq_bind]
  exact hp.bind fun a => succeed (f a)

theorem bindMap {p : Parser α} {k : α → Parser β} (f : α → β → γ) (hp : SoundOn strict subject p)
    (hk : ∀ a, SoundOn strict subject (k a)) : SoundOn strict subject (p.bindMap k f) := by
  rw [bindMap_eq_bind]
  exact hp.bind fun a => (hk a).map (f a)

theorem seqRight {p : Parser α} {q : Parser β} (hp : SoundOn strict subject p)
    (hq : SoundOn strict subject q) : SoundOn strict subject (p.seqRight q) :=
  hp.bind fun _ => hq

theorem seqLeft {p : Parser α} {q : Parser β} (hp : SoundOn strict subject p)
    (hq : SoundOn strict subject q) : SoundOn strict subject (p.seqLeft q) := by
  rw [seqLeft_eq_bind]
  exact hp.bind fun a => hq.map fun _ => a

/-! ## Parsers that go back

What failed is forgotten together with the environment and the position it had
reached, so only where it began matters. -/

theorem firstOf {ps : List (Parser α)} (hps : ∀ p ∈ ps, SoundOn strict subject p) {env : Env}
    {n : Nat} (hs : env.subject = subject) (henv : env.Sound) (hn : Text.IsBoundary n subject)
    {failure : Reply α} (hfailure : failure.Sound strict subject) (index : Nat) :
    (Parser.firstOf index failure ps env n).Ensures (Reply.Sound strict subject) := by
  induction ps generalizing failure index with
  | nil => exact .pure hfailure
  | cons p ps ih =>
    refine match_ensures (hps p List.mem_cons_self hs henv hn)
      (fun _ _ _ hs' henv' hstop => .pure ⟨hs', henv', hstop⟩) (fun message about h => ?_)
    exact .bind_any fun _ => ih (fun q hq => hps q (List.mem_cons_of_mem p hq)) h (index + 1)

theorem choice {ps : List (Parser α)} (hps : ∀ p ∈ ps, SoundOn strict subject p) :
    SoundOn strict subject (Parser.choice ps) :=
  fun _ _ hs henv hn => firstOf hps hs henv hn (sound_fail_here hn _) 0

theorem orElse {p q : Parser α} (hp : SoundOn strict subject p) (hq : SoundOn strict subject q) :
    SoundOn strict subject (p.orElse q) :=
  fun _ _ hs henv hn => match_ensures (hp hs henv hn)
    (fun _ _ _ hs' henv' hstop => .pure ⟨hs', henv', hstop⟩)
    (fun _ _ _ => .bind_any fun _ => hq hs henv hn)

theorem withDefault {p : Parser α} (hp : SoundOn strict subject p) (default : α) :
    SoundOn strict subject (p.withDefault default) :=
  fun _ _ hs henv hn => match_ensures (hp hs henv hn)
    (fun _ _ _ hs' henv' hstop => .pure ⟨hs', henv', hstop⟩)
    (fun _ _ _ => .pure ⟨hs, henv, hn⟩)

theorem optional {p : Parser α} (hp : SoundOn strict subject p) :
    SoundOn strict subject p.optional :=
  (hp.map some).withDefault none

theorem lookahead {p : Parser α} (hp : SoundOn strict subject p) :
    SoundOn strict subject p.lookahead :=
  fun _ _ hs henv hn => match_ensures (hp hs henv hn)
    (fun _ _ _ hs' henv' _ => .pure ⟨hs', henv', hn⟩) (fun _ _ h => .pure h)

theorem notAhead {p : Parser α} (hp : SoundOn strict subject p) :
    SoundOn strict subject p.notAhead :=
  fun _ _ hs henv hn => match_ensures (hp hs henv hn)
    (fun _ _ _ _ _ _ => .pure (sound_fail_here hn _)) (fun _ _ _ => .pure ⟨hs, henv, hn⟩)

theorem filter {p : Parser α} (hp : SoundOn strict subject p) (accept : α → Bool) :
    SoundOn strict subject (p.filter accept) := by
  intro env n hs henv hn
  refine match_ensures (hp hs henv hn) (fun env' stop a hs' henv' hstop => ?_)
    (fun _ _ h => .pure h)
  split
  · exact .pure ⟨hs', henv', hstop⟩
  · exact .pure (sound_fail_here hn _)

/-- A changed failure is about a boundary if it is changed to be about one. -/
theorem mapFailure {p : Parser α} {f : String → Option Nat → String × Option Nat}
    (hp : SoundOn strict subject p)
    (hf : ∀ message about, (Reply.fail (α := α) message about).Sound strict subject →
      (Reply.fail (α := α) (f message about).1 (f message about).2).Sound strict subject) :
    SoundOn strict subject (p.mapFailure f) := by
  intro env n hs henv hn
  refine match_ensures (hp hs henv hn) (fun _ _ _ hs' henv' hstop => .pure ⟨hs', henv', hstop⟩)
    (fun message about h => ?_)
  show (if (f message about).1.isEmpty then Eval.stop .emptyMessage
    else Pure.pure (Reply.fail (f message about).1 (f message about).2)).Ensures _
  split
  · exact .stop _
  · exact .pure (hf message about h)

theorem mapMessage {p : Parser α} (hp : SoundOn strict subject p) (f : String → String) :
    SoundOn strict subject (p.mapMessage f) :=
  hp.mapFailure fun _ _ h => h

theorem mapMessageAt {p : Parser α} {g : Option Nat → Nat} (hp : SoundOn strict subject p)
    (f : String → String) (hg : strict → ∀ about, Text.IsBoundary (g about) subject) :
    SoundOn strict subject (p.mapMessageAt f g) :=
  hp.mapFailure fun _ about _ hstrict _ hm => Option.some.inj hm ▸ hg hstrict about

/-! ## Repetition -/

/-- **A round hands on a boundary**, and an environment of the same subject. -/
theorem round {item : Parser α} {delimiter : Parser δ} (hitem : SoundOn strict subject item)
    (hdelimiter : SoundOn strict subject delimiter) {env : Env} {n : Nat}
    (hs : env.subject = subject) (henv : env.Sound) (hn : Text.IsBoundary n subject) :
    (Parser.round item delimiter env n).Ensures fun r => ∀ r', r = some r' →
      r'.env.subject = subject ∧ r'.env.Sound ∧ Text.IsBoundary r'.stop subject := by
  refine .bind (hdelimiter hs henv hn) fun reply hreply => ?_
  cases reply with
  | fail => exact .bind_any fun _ => .pure (by simp)
  | ok env₁ middle d =>
    refine .bind (hitem hreply.1 hreply.2.1 hreply.2.2) fun reply hreply => ?_
    cases reply with
    | fail => exact .bind_any fun _ => .pure (by simp)
    | ok env₂ stop a =>
      simp only []
      split
      · exact .pure fun r' hr' => Option.some.inj hr' ▸ hreply
      · exact .bind_any fun _ => .pure (by simp)

/-- The chain of rounds ends at a boundary, whatever value is made of it. The
induction is on the rounds that are allowed. -/
theorem rounds {item : Parser α} {delimiter : Parser δ} (hitem : SoundOn strict subject item)
    (hdelimiter : SoundOn strict subject delimiter) (left : Nat) {env : Env} {n : Nat}
    (hs : env.subject = subject) (henv : env.Sound) (hn : Text.IsBoundary n subject) :
    (Parser.rounds item delimiter left env n).Ensures fun chain =>
      ∀ a, (Round.reply env n chain a).Sound strict subject := by
  induction left generalizing env n with
  | zero =>
    unfold Parser.rounds
    refine .bind (round hitem hdelimiter hs henv hn) fun r _ => ?_
    cases r <;> exact .pure fun a => ⟨hs, henv, hn⟩
  | succ left ih =>
    unfold Parser.rounds
    refine .bind (round hitem hdelimiter hs henv hn) fun r hr => ?_
    cases r with
    | none => exact .pure fun a => ⟨hs, henv, hn⟩
    | some r =>
      obtain ⟨hs', henv', hstop⟩ := hr r rfl
      exact .bind (ih hs' henv' hstop) fun chain hchain => .pure hchain

theorem repetition {item : Parser α} {delimiter : Parser δ} (hitem : SoundOn strict subject item)
    (hdelimiter : SoundOn strict subject delimiter) (value : α → List (Round δ α) → α) :
    SoundOn strict subject (Parser.repetition item delimiter value) :=
  fun _ _ hs henv hn => match_ensures (hitem hs henv hn)
    (fun _ _ _ hs' henv' hstop => .bind (rounds hitem hdelimiter _ hs' henv' hstop)
      fun _ hchain => .pure (hchain _))
    (fun _ _ h => .pure h)

theorem foldSep {item : Parser α} {delimiter : Parser δ} (hitem : SoundOn strict subject item)
    (hdelimiter : SoundOn strict subject delimiter) (f : α → δ → α → α) :
    SoundOn strict subject (item.foldSep delimiter f) := by
  rw [foldSep_eq_repetition]
  exact hitem.repetition hdelimiter _

theorem foldSepRight {item : Parser α} {delimiter : Parser δ}
    (hitem : SoundOn strict subject item) (hdelimiter : SoundOn strict subject delimiter)
    (f : α → δ → α → α) : SoundOn strict subject (item.foldSepRight delimiter f) := by
  rw [foldSepRight_eq_repetition]
  exact hitem.repetition hdelimiter _

theorem foldMany1 {item : Parser α} (hitem : SoundOn strict subject item) (f : α → α → α) :
    SoundOn strict subject (item.foldMany1 f) :=
  hitem.foldSep (token (.exact _) _) _

/-! ## Other environments, other texts and recursive grammars -/

/-- What follows goes on in the environment of the call, so that one has to be of
the same subject as the one that is made. -/
theorem inEnvM {p : Parser α} {change : Env → Eval Env} (hp : SoundOn strict subject p)
    (hchange : ∀ env : Env, env.Sound →
      (change env).Ensures fun env' => env'.subject = env.subject ∧ env'.Sound) :
    SoundOn strict subject (p.inEnvM change) := by
  intro env n hs henv hn
  refine .bind (hchange env henv) fun env' henv' => ?_
  refine .bind (hp (henv'.1.trans hs) henv'.2 hn) fun reply hreply => .pure ?_
  cases reply with
  | ok => exact ⟨hs, henv, hreply.2.2⟩
  | fail => exact hreply

theorem inEnv {p : Parser α} {change : Env → Env} (hp : SoundOn strict subject p)
    (hchange : ∀ env : Env, env.Sound →
      (change env).subject = env.subject ∧ (change env).Sound) :
    SoundOn strict subject (p.inEnv change) := by
  rw [Construction.inEnv_eq_inEnvM]
  exact hp.inEnvM fun env henv => .pure (hchange env henv)

/-- Positions in the other text are forgotten. -/
theorem onText {p : Parser α} {other : Text} (hp : SoundOn strict other p) :
    SoundOn strict subject (p.onText other) :=
  fun env _ hs henv hn => match_ensures
    (@hp (env.withSubject other) 0 rfl henv (.of_from? (Text.from?_zero other)))
    (fun _ _ _ _ _ _ => .pure ⟨hs, henv, hn⟩) (fun _ _ _ => .pure (sound_fail_here hn _))

theorem fresh {build : Nat → Except Fault (Parser α)}
    (hbuild : ∀ scope p, build scope = .ok p → SoundOn strict subject p) :
    SoundOn strict subject (Parser.fresh build) := by
  intro env n hs henv hn
  refine .bind_any fun scope => .bind (.ofExcept fun p hp => hbuild scope p hp) fun p hp => ?_
  exact .bind (hp hs henv hn) fun reply hreply => .bind_any fun _ => .pure hreply

/-- **A recursive grammar is sound if its rules are, given sound handles.** The
handles of a call have one call less to spend, so the induction is on the
calls that are left. -/
theorem entry {ι : Type} {τ : ι → Type} {knot : Knot τ}
    (hknot : ∀ handles : Parsers τ, (∀ j subject, SoundOn strict subject (handles j)) →
      ∀ i p, knot.rule i handles = .ok p → ∀ subject, SoundOn strict subject p)
    (i : ι) (subject : Text) : SoundOn strict subject (knot.entry i) := by
  -- all nonterminals at once: a rule calls others than its own
  have hcall : ∀ budget i subject, SoundOn strict subject ⟨knot.call budget i⟩ := by
    intro budget
    induction budget with
    | zero => exact fun _ _ _ _ _ _ _ => .giveUp
    | succ budget ih =>
      intro i subject env n hs henv hn
      refine .bind_any fun _ => .bind (.ofExcept (hknot _ (fun j subject env n hs henv hn => ?_) i))
        fun p hp => .withBudget (hp subject hs henv hn)
      exact .bind_any fun _ => ih j subject hs henv hn
  exact fun env n hs henv hn => .bind_any fun budget => hcall budget i subject hs henv hn

end SoundOn

/-- The scan of a parser that keeps to the boundaries of every subject. -/
theorem scan_sound {p : Parser α} (hp : ∀ subject, SoundOn strict subject p) : p.scan.Sound := by
  intro subject n hn
  refine .bind (hp subject rfl (.new subject) hn) fun reply hreply => ?_
  cases reply with
  | ok => exact .pure fun m hm => Option.some.inj hm ▸ hreply.2.2
  | fail => exact .pure fun m hm => absurd hm (by simp)

end Parser

/-! ## Literals -/

namespace Literal

open Descent.Parser

variable {strict : Prop} {subject : Text}

theorem SoundOn.digits (pattern : String) (accept : Char → Bool) (base : Nat) :
    SoundOn strict subject (digits pattern accept base) := by
  refine .bind (.token (.run1 accept) _) fun text => ?_
  show SoundOn strict subject (if _ then _ else _)
  split
  · exact .succeed _
  · exact .fail _

theorem SoundOn.magnitude (format : NumberFormat) :
    SoundOn strict subject (magnitude format) := by
  have marked : ∀ {marker : String} {p : Parser Nat}, SoundOn strict subject p →
      SoundOn strict subject ((Parser.string marker).seqRight p) :=
    fun hp => .seqRight (.token (.exact _) _) hp
  exact magnitude_induction .orElse (marked (SoundOn.digits ..)) (marked (SoundOn.digits ..))
    (marked (SoundOn.digits ..)) (SoundOn.digits ..) format

/-- A failure of a number literal is about where the literal began. -/
theorem SoundOn.number (format : NumberFormat) : SoundOn strict subject (number format) :=
  .position_bind fun _ hn => .bind (.withDefault (.token (.exact _) _) _) fun _ =>
    .map _ (.bind (.mapMessageAt (SoundOn.magnitude format) _ fun _ _ => hn) fun _ => .succeed _)

theorem SoundOn.decoded {read : Reader} (hread : read.Sound) (pattern : String)
    (meaning : Text → Option Text) : SoundOn strict subject (decoded read pattern meaning) := by
  intro env n hs henv hn
  have htoken : SoundOn strict subject
      (Parser.token read ("Does not match pattern " ++ pattern)) := .token hread _
  refine .bind (htoken hs henv hn) fun reply hreply => ?_
  cases reply with
  | fail message about => exact .pure hreply
  | ok env' stop text =>
    simp only []
    split
    · exact .pure hreply
    · exact .pure (sound_fail_here hn _)

theorem SoundOn.fragment (quote : Char) (escape : Escape) (format : StringFormat) :
    SoundOn strict subject (fragment quote escape format) :=
  fragment_induction .orElse (fun form => SoundOn.decoded (.codeForm form) _ _)
    (SoundOn.decoded .pairReader _ _) (.map _ (.token (.run1 _) _))

theorem SoundOn.quotedWith (quote : Char) (escape : Escape) (format : StringFormat)
    (message : String) : SoundOn strict subject (quotedWith quote escape format message) := by
  have hquote : SoundOn strict subject (Parser.string (String.singleton quote)) :=
    .token (.exact _) _
  have hfragments : Parser.SoundOn strict subject
      ((Literal.fragment quote escape format).foldMany1 fun a b => a ++ b) :=
    (SoundOn.fragment quote escape format).foldMany1 _
  refine .mapMessage (.map _ (.seqRight hquote ?_)) _
  refine .inEnv (.seqLeft (hfragments.withDefault []) hquote) fun env henv => ⟨rfl, ?_⟩
  rintro s (h | h)
  · exact absurd h (by simp [Env.withoutSkip, Env.withSkip])
  · exact henv s (.inr h)

end Literal

/-- **Every primitive keeps to the boundaries.** -/
theorem Primitive.soundOn {strict : Prop} {α : Type} (p : Primitive α) (subject : Text) :
    p.parser.SoundOn strict subject := by
  cases p with
  | string => exact .token (.exact _) _
  | ignoreCase => exact .token (.sameLetters _) _
  | pattern text message p valid =>
    obtain ⟨program, rfl⟩ := Parser.exists_matching valid
    exact .token (.find? program) message
  | atEnd => exact .endWith _
  | real message =>
    refine .bind (.token .real message) fun text => ?_
    split
    · exact .succeed _
    · exact .fail _
  | key => exact .bounded (.token (.exact _) _) _
  | keyIgnoreCase => exact .bounded (.token (.sameLetters _) _) _
  | number => exact Literal.SoundOn.number _
  | quoted => exact Literal.SoundOn.quotedWith ..
  | javaIdentifier => exact .token .identifierReader _
  | succeed => exact .succeed _
  | fail => exact .fail _
  | position => exact .position
  | moveTo => exact .moveTo _

/-! ## Everything that can be built -/

namespace Construction

/-- The function leaves the subject alone, and what it puts into the environment
was there before or was given to it. -/
def KeepsSubject {J : Type} (change : (J → Scan) → Env → Eval Env) : Prop :=
  ∀ scans env, (change scans env).Ensures fun env' => env'.subject = env.subject
    ∧ ∀ s, env'.skip = some s ∨ env'.follow = some s →
      env.skip = some s ∨ env.follow = some s ∨ ∃ j, s = scans j

/-- No parser is written by hand and no function changes the subject. -/
def Policy.keepsSubject (relocation : Prop) : Policy where
  relocation := relocation
  change := KeepsSubject

/-- **Whatever is built keeps to the boundaries.** Failures are held to them too
unless the construction changes the positions they are about. -/
theorem soundOn {strict : Prop} {V : Type} {Γ : V → Type} {α : Type} (c : Construction Γ α)
    (hc : c.Obeys (.keepsSubject (¬strict))) {handles : Parsers Γ}
    (hh : ∀ v subject, (handles v).SoundOn strict subject) (subject : Text) :
    (c.parser handles).SoundOn strict subject := by
  induction c generalizing subject with
  | handle v => exact hh v subject
  | primitive p => exact p.soundOn subject
  | own p => exact hc.elim
  | unbuilt cause => exact .fresh fun _ _ h => absurd h (by simp)
  | map f p ihp => exact .map f (ihp hc hh subject)
  | bind p k ihp ihk => exact .bind (ihp hc.1 hh subject) fun a => ihk a (hc.2 a) hh subject
  | bindMap p k f ihp ihk =>
    exact .bindMap f (ihp hc.1 hh subject) fun a => ihk a (hc.2 a) hh subject
  | seqRight p q ihp ihq => exact .seqRight (ihp hc.1 hh subject) (ihq hc.2 hh subject)
  | seqLeft p q ihp ihq => exact .seqLeft (ihp hc.1 hh subject) (ihq hc.2 hh subject)
  | choice ps ih =>
    refine .choice fun p hp => ?_
    obtain ⟨i, rfl⟩ := List.mem_ofFn.mp hp
    exact ih i (hc i) hh subject
  | orElse p q ihp ihq => exact .orElse (ihp hc.1 hh subject) (ihq hc.2 hh subject)
  | withDefault p default ih => exact .withDefault (ih hc hh subject) default
  | optional p ih => exact .optional (ih hc hh subject)
  | lookahead p ih => exact .lookahead (ih hc hh subject)
  | notAhead p ih => exact .notAhead (ih hc hh subject)
  | filter p accept ih => exact .filter (ih hc hh subject) accept
  | mapMessage p f ih => exact .mapMessage (ih hc hh subject) f
  | mapMessageAt p f g ih =>
    exact .mapMessageAt (ih hc.2 hh subject) f fun hstrict => absurd hstrict hc.1
  | withMessage p message ih => exact .mapMessage (ih hc hh subject) _
  | foldSep item delimiter f ihi ihd =>
    exact .foldSep (ihi hc.1 hh subject) (ihd hc.2 hh subject) f
  | foldSepRight item delimiter f ihi ihd =>
    exact .foldSepRight (ihi hc.1 hh subject) (ihd hc.2 hh subject) f
  | foldMany1 item f ih => exact .foldMany1 (ih hc hh subject) f
  | foldMany item f default ih => exact .withDefault (.foldMany1 (ih hc hh subject) f) default
  | inEnv p scanners change ihp ihs =>
    refine .inEnvM (ihp hc.1 hh subject) fun env henv => ?_
    refine (hc.2.2 _ env).mono fun env' h => ⟨h.1, fun s hs => ?_⟩
    obtain hs | hs | ⟨j, rfl⟩ := h.2 s hs
    · exact henv s (.inl hs)
    · exact henv s (.inr hs)
    · exact Parser.scan_sound (ihs j (hc.2.1 j) hh)
  | onText p other ih => exact .onText (ih hc hh other)
  | fresh build ih =>
    exact .fresh fun scope p hp => Except.ok.inj hp ▸ ih scope (hc scope) hh subject
  | recursive name order rules i ih =>
    refine .entry (fun inner hinner i p hp => Except.ok.inj hp ▸ ih i (hc i) fun v => ?_) i subject
    -- a handle of a rule is one of its surroundings, or one of the grammar
    cases v with
    | inl v => exact hh v
    | inr j => exact hinner j

end Construction

/-- A built environment skips from boundaries to boundaries. -/
theorem Env.BuiltBy.sound {env : Env} (h : env.BuiltBy (.keepsSubject True)) : env.Sound := by
  intro s hs
  obtain ⟨β, c, hc, rfl⟩ := h s hs
  rw [← not_false_eq_true] at hc
  exact Parser.scan_sound fun subject => c.soundOn hc (fun v => v.elim) subject

/-- A run checks its start, so the parser is called at a boundary. -/
theorem Parser.SoundOn.runIn {strict : Prop} {α : Type} {p : Parser α} {env : Env}
    (hp : p.SoundOn strict env.subject) (henv : env.Sound) (start : Nat) :
    (p.runIn env start).Ensures fun result =>
      ∀ reply, result = .ok reply → reply.Sound strict env.subject := by
  refine .bind_any fun _ => ?_
  split
  · exact .pure (by simp)
  · split
    · exact .pure (by simp)
    · next hstart =>
      have hboundary : Text.IsBoundary start env.subject := by
        rw [Option.isNone_iff_eq_none] at hstart
        exact Option.isSome_iff_ne_none.mpr hstart
      exact .bind (hp rfl henv hboundary) fun reply hreply => .bind_any fun _ =>
        .pure fun reply' h => Except.ok.inj h ▸ hreply

/-- **Positions are valid over whole runs.** A grammar is built by the library
and no function of it changes the subject; what is skipped, and what may follow a
keyword, are built so too. Then a run that returns ends within the subject and at
a boundary; and a failure is about such a position, too, unless the grammar itself
changes what its failures are about. -/
theorem Construction.isBoundary_of_runIn {α : Type} (c : Construction.Closed α)
    (hc : c.Obeys (.keepsSubject True)) {env : Env} (henv : env.BuiltBy (.keepsSubject True))
    {start budget : Nat} {k k' : Knots} {reply : Reply α} {log : List Event}
    (h : c.toParser.runIn env start budget k = .done (.ok reply) log k') :
    (∀ env' stop a, reply = .ok env' stop a →
      stop ≤ env.length ∧ Text.IsBoundary stop env.subject)
    ∧ (c.Obeys (.keepsSubject False) → ∀ message about, reply = .fail message (some about) →
      about ≤ env.length ∧ Text.IsBoundary about env.subject) := by
  constructor
  · rintro env' stop a rfl
    -- nothing is asked of failures here, so they may be about any position
    rw [← not_false_eq_true] at hc
    have hreply := (c.soundOn hc (fun v => v.elim) env.subject).runIn henv.sound start h _ rfl
    exact ⟨hreply.2.2.le_size, hreply.2.2⟩
  · rintro hfixed message about rfl
    rw [← not_true_eq_false] at hfixed
    have hreply := (c.soundOn hfixed (fun v => v.elim) env.subject).runIn henv.sound start h _ rfl
    exact ⟨(hreply trivial about rfl).le_size, hreply trivial about rfl⟩

namespace Construction

/-- An accented letter and more of them, or the end. -/
def accent : Construction (Sum.elim (Empty.elim : Empty → Type) fun _ : Unit => String) String :=
  .orElse (.seqRight (.primitive (.string "é" "no accent")) (.handle (Sum.inr ())))
    (.seqRight (.primitive (.atEnd "not at the end")) (.primitive (.succeed "end")))

/-- Accented letters up to the end. -/
def accents : Closed String := .recursive ⟨0, []⟩ [()] (fun _ => accent) ()

/-- A subject of accented letters where pairs of blanks are skipped. -/
def accentsEnv : Env :=
  ⟨['é', ' ', ' ', 'é'],
    some (Closed.toParser (.primitive (.string "  " "no blanks"))).scan, none⟩

theorem isBoundary_of_runIn_accents :
    accents.Obeys (.keepsSubject True) ∧ accentsEnv.BuiltBy (.keepsSubject True)
    ∧ (∃ log k', accents.toParser.runIn accentsEnv 0 4 .initial
        = .done (.ok (.ok accentsEnv 6 "end")) log k')
    ∧ 6 ≤ accentsEnv.length ∧ Text.IsBoundary 6 accentsEnv.subject := by
  have hc : accents.Obeys (.keepsSubject True) :=
    fun _ => ⟨⟨trivial, trivial⟩, trivial, trivial⟩
  have henv : accentsEnv.BuiltBy (.keepsSubject True) := by
    rintro s (h | h)
    · exact ⟨String, .primitive (.string "  " "no blanks"), trivial, (Option.some.inj h).symm⟩
    · exact absurd h (by simp [accentsEnv])
  have hrun : ∃ log k', accents.toParser.runIn accentsEnv 0 4 .initial
      = .done (.ok (.ok accentsEnv 6 "end")) log k' := ⟨_, _, rfl⟩
  obtain ⟨log, k', h⟩ := hrun
  exact ⟨hc, henv, ⟨log, k', h⟩,
    (isBoundary_of_runIn accents hc henv h).1 accentsEnv 6 "end" rfl⟩

end Construction

end Descent
