import Descent.Parser.Run
import Descent.Proofs.Boundary

/-!
# Every run is checked alike

A run can be begun in six ways. They make the environment in different places, and
there are three reasons to refuse a run: a text that is no pattern, a start beyond
the subject, and a start inside a character. This module proves that all of them
are one checked run (`Parser.runWith_checked`): what is refused, and for which
reason, is decided before any parsing begins and in the same order everywhere, and
what is not refused is the parser itself, called at the start in the environment
that the texts describe.

**The order of the reasons** is that of the constructors of `Refusal`. Each of them
says that nothing above it is wrong, so that a run has at most one. Whether a text
is a pattern does not depend on the start, and comes first: the patterns are
compiled to make the environment, and the start is checked in it.
-/

namespace Descent

/-- A text that is given is the text of a pattern. -/
def Compiles (pattern : Option String) : Prop :=
  ∀ text, pattern = some text → ∃ program, Regex.compileAnchored text = .ok program

/-- A text is given that is no pattern, for a reason. -/
def Rejected (pattern : Option String) (reason : String) : Prop :=
  ∃ text e, pattern = some text ∧ Regex.compileAnchored text = .error e ∧ reason = e.message

/-- The scan of a text that is given and is a pattern. -/
def patternScan (pattern : Option String) : Option Scan :=
  pattern.bind fun text => (Pattern.text text).scan.toOption

/-- **Why a run is refused**, of which nothing that comes first is wrong. -/
inductive Refusal (subject : Text) (options : ParseOptions) : RunError → Prop where
  /-- What is to be skipped is no pattern. -/
  | skip {reason : String} (h : Rejected options.skip reason) :
      Refusal subject options (.pattern reason)
  /-- What may follow a keyword is no pattern. -/
  | follow {reason : String} (hskip : Compiles options.skip)
      (h : Rejected options.follow reason) : Refusal subject options (.pattern reason)
  /-- The start is beyond the subject. -/
  | beyond (hskip : Compiles options.skip) (hfollow : Compiles options.follow)
      (h : Text.size subject < options.start.toNat) :
      Refusal subject options (.positionOutOfRange options.start.toNat (Text.size subject))
  /-- The start is inside a character. -/
  | inside (hskip : Compiles options.skip) (hfollow : Compiles options.follow)
      (hrange : options.start.toNat ≤ Text.size subject)
      (h : ¬ Text.IsBoundary options.start.toNat subject) :
      Refusal subject options (.notCharBoundary options.start.toNat)

/-! ## The patterns of an environment -/

theorem Compiles.of_eq_ok {text : String} {program : Regex.Program}
    (h : Regex.compileAnchored text = .ok program) : Compiles (some text) :=
  fun _ htext => Option.some.inj htext ▸ ⟨program, h⟩

theorem compiles_or_rejected (pattern : Option String) :
    Compiles pattern ∨ ∃ reason, Rejected pattern reason := by
  cases pattern with
  | none => exact .inl fun _ h => absurd h (by simp)
  | some text =>
    cases hcompile : Regex.compileAnchored text with
    | ok program => exact .inl (.of_eq_ok hcompile)
    | error e => exact .inr ⟨e.message, text, e, rfl, hcompile, rfl⟩

/-- The scan of a text that compiles is that of its matcher. -/
theorem Pattern.scan_text {text : String} {program : Regex.Program}
    (h : Regex.compileAnchored text = .ok program) : (Pattern.text text).scan
      = .ok (Parser.matching program ("Does not match pattern " ++ text)).scan := by
  simp only [Pattern.scan, Parser.pattern, Parser.patternWith, h]
  rfl

/-- A text that compiles has a scan, -/
theorem Compiles.mapM_scan {pattern : Option String} (h : Compiles pattern) :
    (pattern.mapM fun text => (Pattern.text text).scan) = .ok (patternScan pattern) := by
  cases pattern with
  | none => rfl
  | some text =>
    obtain ⟨program, hprogram⟩ := h text rfl
    have hscan := Pattern.scan_text hprogram
    simp only [patternScan, Option.bind_some, hscan]
    exact congrArg (some <$> ·) hscan

/-- and one that does not is the reason why there is no environment. -/
theorem Rejected.mapM_scan {pattern : Option String} {reason : String}
    (h : Rejected pattern reason) :
    (pattern.mapM fun text => (Pattern.text text).scan) = .error (.pattern reason) := by
  obtain ⟨text, e, rfl, he, rfl⟩ := h
  have hscan : (Pattern.text text).scan = .error (.pattern e.message) := by
    simp only [Pattern.scan, Parser.pattern, Parser.patternWith, he]
    rfl
  exact congrArg (some <$> ·) hscan

namespace ParseOptions

variable {options : ParseOptions}

theorem env_of_compiles (hskip : Compiles options.skip) (hfollow : Compiles options.follow)
    (subject : Text) :
    options.env subject = .ok ⟨subject, patternScan options.skip, patternScan options.follow⟩ := by
  rw [env, Env.withPatterns, hskip.mapM_scan, hfollow.mapM_scan]
  rfl

theorem env_of_rejected_skip {reason : String} (h : Rejected options.skip reason)
    (subject : Text) : options.env subject = .error (.pattern reason) := by
  rw [env, Env.withPatterns, h.mapM_scan]
  rfl

theorem env_of_rejected_follow {reason : String} (hskip : Compiles options.skip)
    (h : Rejected options.follow reason) (subject : Text) :
    options.env subject = .error (.pattern reason) := by
  rw [env, Env.withPatterns, hskip.mapM_scan, h.mapM_scan]
  rfl

end ParseOptions

namespace Parser

variable {α : Type}

/-! ## The start -/

theorem runIn_of_beyond (p : Parser α) {env : Env} {start : Nat} (h : env.length < start) :
    p.runIn env start = Eval.emit (.runEntered start env.length) >>= fun _ =>
      pure (.error (.positionOutOfRange start env.length)) := by
  simp only [runIn, if_pos h]

theorem runIn_of_inside (p : Parser α) {env : Env} {start : Nat} (hrange : start ≤ env.length)
    (h : ¬ Text.IsBoundary start env.subject) :
    p.runIn env start = Eval.emit (.runEntered start env.length) >>= fun _ =>
      pure (.error (.notCharBoundary start)) := by
  have hnone : (env.from? start).isNone :=
    Option.isNone_iff_eq_none.mpr (Option.not_isSome_iff_eq_none.mp h)
  simp only [runIn, if_neg (Nat.not_lt.mpr hrange), if_pos hnone]

/-- At the end of a character, a run is the parser, between two remarks. -/
theorem runIn_of_isBoundary (p : Parser α) {env : Env} {start : Nat}
    (h : Text.IsBoundary start env.subject) :
    p.runIn env start = (do
      Eval.emit (.runEntered start env.length)
      let reply ← p.run env start
      Eval.emit (.runFinished reply.isOk)
      pure (.ok reply)) := by
  have hrange : ¬ env.length < start := Nat.not_lt.mpr (Text.IsBoundary.le_size h)
  have hsome : ¬ (env.from? start).isNone := fun hnone =>
    absurd h (Option.not_isSome_iff_eq_none.mpr (Option.isNone_iff_eq_none.mp hnone))
  simp only [runIn, if_neg hrange, if_neg hsome]

/-- What is run is not refused. -/
theorem runIn_ne_error {p : Parser α} {env : Env} {start : Nat}
    (h : Text.IsBoundary start env.subject) (e : RunError) (n : Nat) (k : Knots)
    (log : List Event) (k' : Knots) : p.runIn env start n k ≠ .done (.error e) log k' := by
  rw [p.runIn_of_isBoundary h]
  intro hdone
  obtain ⟨_, _, _, _, -, hrest, -⟩ := Eval.bind_eq_done_iff.mp hdone
  obtain ⟨_, _, _, _, -, hrest, -⟩ := Eval.bind_eq_done_iff.mp hrest
  obtain ⟨_, _, _, _, -, hlast, -⟩ := Eval.bind_eq_done_iff.mp hrest
  rw [Eval.pure_apply, Outcome.done.injEq] at hlast
  exact absurd hlast.1 (by simp)

/-! ## Runs as options say -/

variable {subject : Text} {options : ParseOptions}

/-- **What is wrong with the options ends the run**, whichever parser was to be run. -/
theorem runWith_of_refusal {e : RunError} (h : Refusal subject options e) :
    ∃ log, ∀ {β : Type} (q : Parser β) (n : Nat) (k : Knots),
      q.runWith subject options n k = .done (.error e) log k := by
  cases h with
  | skip h =>
    refine ⟨[], fun q n k => ?_⟩
    rw [runWith, ParseOptions.env_of_rejected_skip h]
    rfl
  | follow hskip h =>
    refine ⟨[], fun q n k => ?_⟩
    rw [runWith, ParseOptions.env_of_rejected_follow hskip h]
    rfl
  | beyond hskip hfollow h =>
    refine ⟨[.runEntered options.start.toNat (Text.size subject)], fun q n k => ?_⟩
    rw [runWith, ParseOptions.env_of_compiles hskip hfollow, runInE, q.runIn_of_beyond h]
    rfl
  | inside hskip hfollow hrange h =>
    refine ⟨[.runEntered options.start.toNat (Text.size subject)], fun q n k => ?_⟩
    rw [runWith, ParseOptions.env_of_compiles hskip hfollow, runInE, q.runIn_of_inside hrange h]
    rfl

/-- What is not wrong is a start at the end of a character, in an environment. -/
theorem refusal_or (subject : Text) (options : ParseOptions) :
    (∃ e, Refusal subject options e)
      ∨ Compiles options.skip ∧ Compiles options.follow
        ∧ Text.IsBoundary options.start.toNat subject := by
  obtain hskip | ⟨reason, h⟩ := compiles_or_rejected options.skip
  · obtain hfollow | ⟨reason, h⟩ := compiles_or_rejected options.follow
    · by_cases hrange : Text.size subject < options.start.toNat
      · exact .inl ⟨_, .beyond hskip hfollow hrange⟩
      · by_cases hboundary : Text.IsBoundary options.start.toNat subject
        · exact .inr ⟨hskip, hfollow, hboundary⟩
        · exact .inl ⟨_, .inside hskip hfollow (Nat.le_of_not_lt hrange) hboundary⟩
    · exact .inl ⟨_, .follow hskip h⟩
  · exact .inl ⟨_, .skip h⟩

/-- **A run is refused for what is wrong with its options**, at any budget and from any
state, and for nothing else. -/
theorem runWith_eq_error_iff (p : Parser α) {e : RunError} {n : Nat} {k : Knots} :
    (∃ log k', p.runWith subject options n k = .done (.error e) log k')
      ↔ Refusal subject options e := by
  constructor
  · rintro ⟨log, k', hdone⟩
    obtain ⟨e', h⟩ | ⟨hskip, hfollow, hboundary⟩ := refusal_or subject options
    · obtain ⟨log', hrefused⟩ := runWith_of_refusal h
      rw [hrefused p n k, Outcome.done.injEq] at hdone
      exact Except.error.inj hdone.1 ▸ h
    · rw [runWith, ParseOptions.env_of_compiles hskip hfollow] at hdone
      exact absurd hdone (runIn_ne_error hboundary e n k log k')
  · intro h
    obtain ⟨log, hrefused⟩ := runWith_of_refusal h
    exact ⟨log, k, hrefused p n k⟩

/-- A run is refused for one reason. -/
theorem refusal_unique {e e' : RunError} (h : Refusal subject options e)
    (h' : Refusal subject options e') : e = e' := by
  obtain ⟨log, hrefused⟩ := runWith_of_refusal h
  obtain ⟨log', hrefused'⟩ := runWith_of_refusal h'
  have hend := (hrefused atEnd 0 .initial).symm.trans (hrefused' atEnd 0 .initial)
  rw [Outcome.done.injEq] at hend
  exact Except.error.inj hend.1

/-- **Every run is the same checked run.** A run as options say is refused because of
a pattern, whatever the start, if what is to be skipped is none, or else what may
follow a keyword; else because the start is beyond the subject, or inside a character.
A refused run ends the same, whichever parser was to be run: none is called. A run
that is not refused is the parser itself, called at the start in the environment of
these patterns. And whatever other way there is to begin a run, it is the run as
options say that say the same, with the same errors in the same order. -/
theorem runWith_checked (p : Parser α) (subject : Text) (options : ParseOptions) :
    (∀ e n k, (∃ log k', p.runWith subject options n k = .done (.error e) log k')
        ↔ Refusal subject options e)
    ∧ (∀ e, Refusal subject options e → ∃ log, ∀ {β : Type} (q : Parser β) n k,
        q.runWith subject options n k = .done (.error e) log k)
    ∧ (Compiles options.skip → Compiles options.follow →
        Text.IsBoundary options.start.toNat subject →
        p.runWith subject options = (do
          Eval.emit (.runEntered options.start.toNat (Text.size subject))
          let reply ← p.run ⟨subject, patternScan options.skip, patternScan options.follow⟩
            options.start.toNat
          Eval.emit (.runFinished reply.isOk)
          pure (.ok reply)))
    ∧ (p.runWith subject {} = do
        Eval.emit (.runEntered 0 (Text.size subject))
        let reply ← p.runText subject
        Eval.emit (.runFinished reply.isOk)
        pure (.ok reply))
    ∧ (∀ start : UInt64, p.runFrom subject start.toNat = p.runWith subject { start })
    ∧ (∀ text, p.runSkipping subject (.text text) = p.runWith subject { skip := some text })
    ∧ (∀ (start : UInt64) text, p.runFromSkipping subject start.toNat (.text text)
        = p.runWith subject { start, skip := some text })
    ∧ (∀ env, options.env subject = .ok env →
        p.runIn env options.start.toNat = p.runWith subject options)
    ∧ p.runInE (Env.withPatterns subject options.skip options.follow) options.start.toNat
        = p.runWith subject options := by
  have hskipping : ∀ (start : UInt64) text,
      p.runFromSkipping subject start.toNat (.text text)
        = p.runWith subject { start, skip := some text } := by
    intro start text
    show p.runInE ((Pattern.text text).scan.map _) _ = p.runInE (Env.withPatterns _ _ _) _
    refine congrArg (p.runInE · start.toNat) ?_
    cases hscan : (Pattern.text text).scan with
    | ok scan => simp [Env.withPatterns, hscan]; rfl
    | error e => simp [Env.withPatterns, hscan]; rfl
  refine ⟨fun e n k => p.runWith_eq_error_iff, fun e => runWith_of_refusal, ?_, ?_,
    fun start => rfl, fun text => hskipping 0 text, hskipping, ?_, rfl⟩
  · intro hskip hfollow hboundary
    rw [runWith, ParseOptions.env_of_compiles hskip hfollow]
    exact p.runIn_of_isBoundary hboundary
  · exact p.runIn_of_isBoundary (.of_from? (Text.from?_zero subject))
  · intro env henv
    rw [runWith, henv]
    rfl

/-- Two bytes that are one letter. A blank is skipped by a pattern, and a parenthesis
is none. From inside the letter a run is refused, unless a pattern is wrong as well;
from its end it is the parser. -/
theorem runWith_checked_accent :
    let accent : Text := ['é']
    let last : ParseOptions := { start := 2, skip := some " " }
    (∃ log k', (string "é").runWith accent { start := 1 } 0 .initial
        = .done (.error (.notCharBoundary 1)) log k')
    ∧ (∃ log k', (string "é").runWith accent { start := 3, follow := some "[a-z]" } 0 .initial
        = .done (.error (.positionOutOfRange 3 2)) log k')
    ∧ (∃ reason log k', (string "é").runWith accent { start := 3, follow := some "(" } 0 .initial
        = .done (.error (.pattern reason)) log k')
    ∧ Compiles last.skip ∧ Compiles last.follow ∧ Text.IsBoundary last.start.toNat accent
    ∧ ∃ log k', atEnd.runWith accent last 0 .initial
        = .done (.ok (.ok ⟨accent, patternScan (some " "), none⟩ 2 ())) log k' := by
  intro accent last
  have hnone : Compiles none := fun _ h => absurd h (by simp)
  have hblank : Compiles (some " ") := .of_eq_ok rfl
  have hword : Compiles (some "[a-z]") := .of_eq_ok rfl
  have hopen : Rejected (some "(") _ := ⟨_, _, rfl, rfl, rfl⟩
  have hboundary : Text.IsBoundary last.start.toNat accent := by decide
  obtain ⟨hrefused, -⟩ := (string "é").runWith_checked accent { start := 1 }
  obtain ⟨hrefused₁, -⟩ := (string "é").runWith_checked accent { start := 3, follow := some "[a-z]" }
  obtain ⟨hrefused₂, -⟩ := (string "é").runWith_checked accent { start := 3, follow := some "(" }
  obtain ⟨-, -, hrun, -⟩ := atEnd.runWith_checked accent last
  refine ⟨(hrefused _ 0 .initial).mpr (.inside hnone hnone (by decide) (by decide)),
    (hrefused₁ _ 0 .initial).mpr (.beyond hnone hword (by decide)),
    ⟨_, (hrefused₂ _ 0 .initial).mpr (.follow hnone hopen)⟩,
    hblank, hnone, hboundary, ?_⟩
  rw [hrun hblank hnone hboundary]
  exact ⟨_, _, rfl⟩

end Parser

end Descent
