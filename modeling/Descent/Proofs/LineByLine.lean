import Descent.Proofs.Lines
import Descent.Proofs.Messages
import Descent.Proofs.Nesting
import Descent.Proofs.Owning
import Descent.Proofs.Writing

/-!
# The calculator evaluates line by line

Lines are evaluated in order, with one grammar, and each of them as if it were the only
one (`Calculator.run_lines`). One line is printed for each, whether it is an expression
or not. What ends the evaluation is a line in which the run cannot even begin: its error
is the last thing that is told, and what comes later is not looked at.

**What a line leaves behind** is a state of the grammar. In `Evaluates` each line begins
with what the one before it left, and all of them together tie the grammar once
(`Evaluates.exists_tyingLog`). No line can tell: whatever the state, a line is replied to,
and alike (`exists_reply`). So the independence of lines needs no comparison of states,
and the calls that a line may nest are enough for it wherever it stands.

**Two kinds of errors** part here. A failure is a reply like others and is printed; a
refusal is no reply, and depends on the line and on the start alone.

**Bytes.** An input that is no text is evaluated up to the first line that is none, and
nothing in front of it is lost (`Invocation.runOn_not_text`, `textInFront_eq`).
-/

namespace Descent

/-- The scan of a text that is given is that of a matcher. -/
theorem Compiles.exists_matching {pattern : Option String} (h : Compiles pattern) {scan : Scan}
    (hscan : patternScan pattern = some scan) :
    ∃ program message, scan = (Parser.matching program message).scan := by
  obtain ⟨text, rfl, htext⟩ := Option.bind_eq_some_iff.mp hscan
  obtain ⟨program, hprogram⟩ := h text rfl
  rw [Pattern.scan_text hprogram] at htext
  exact ⟨program, _, (Option.some.inj htext).symm⟩

/-- **The environment that patterns make obeys every law**: what is left of matchers does. -/
theorem ParseOptions.env_lawful {options : ParseOptions} (hskip : Compiles options.skip)
    (hfollow : Compiles options.follow) (L : Law) (alive : List Nat) (subject : Text) :
    Env.Lawful L alive ⟨subject, patternScan options.skip, patternScan options.follow⟩ := by
  intro scan hscan
  obtain ⟨program, message, rfl⟩ : ∃ program message,
      scan = (Parser.matching program message).scan :=
    hscan.elim hskip.exists_matching hfollow.exists_matching
  exact Parser.Lawful.scan (.token _ _)

/-- A text that compiles is not rejected. -/
theorem Compiles.not_rejected {pattern : Option String} (h : Compiles pattern) {reason : String} :
    ¬ Rejected pattern reason := by
  rintro ⟨text, e, rfl, he, -⟩
  obtain ⟨program, hprogram⟩ := h text rfl
  exact absurd (hprogram.symm.trans he) (by simp)

/-- Where the patterns compile, it is the start that a run is refused for. -/
theorem Refusal.onOneLine {subject : Text} {options : ParseOptions} {e : RunError}
    (h : Refusal subject options e) (hskip : Compiles options.skip)
    (hfollow : Compiles options.follow) : OnOneLine e.message := by
  cases h with
  | skip hrejected => exact absurd hrejected hskip.not_rejected
  | follow _ hrejected => exact absurd hrejected hfollow.not_rejected
  | beyond =>
    exact ((OnOneLine.append (by decide) (.nat _)).append (by decide)).append (.nat _)
  | inside => exact (OnOneLine.append (by decide) (.nat _)).append (by decide)

namespace Calculator

variable {options : ParseOptions} {k k' : Knots} {line : String} {lines later : List String}
  {reply : Reply Float} {replies : List (Reply Float)} {log : List Event}

/-! ## The reply to a line -/

/-- A run of the calculator is a run with what there is to spend. -/
theorem runWith_apply (line : Text) (options : ParseOptions) (b : Nat) (k : Knots) :
    parser.runWith line options b k = (parserAt b).runWith line options b k := by
  unfold Parser.runWith Parser.runInE
  cases options.env line with
  | error e => rfl
  | ok env => exact runIn_apply env _ b k

/-- **A line whose run can begin is replied to**, and alike in every state in which the
grammar is alive. -/
theorem exists_reply (hskip : Compiles options.skip) (hfollow : Compiles options.follow)
    {line : Text} (hstart : Text.IsBoundary options.start.toNat line) :
    ∃ reply : Reply Float, reply.FailsAs IsComplaint ∧ ∀ k : Knots, 0 ∈ k.live →
      ∃ log k', parser.runWith line options (budget line) k = .done (.ok reply) log k'
        ∧ 0 ∈ k'.live := by
  obtain ⟨rest, hrest⟩ := Option.isSome_iff_exists.mp hstart
  obtain ⟨front, rfl, -⟩ := Text.eq_append_of_from? hrest
  -- what stands before the start may open parentheses as well, and they are paid for
  have hopens : Opens ((front ++ rest).count '(') rest :=
    (List.sublist_append_right front rest).count_le '('
  obtain ⟨reply, -, hyields, -⟩ := parserAt_leaves
    (hskip.skipsText (front ++ rest) (patternScan options.follow)) _ le_rfl _ rest hrest hopens
  obtain ⟨_, _, _, hrun, rfl, -⟩ := hyields 0 .initial (List.mem_singleton_self 0)
  refine ⟨_, parserAt_failsAs _ _ _ hrun, fun k hk => ?_⟩
  rw [runWith_apply]
  exact runWith_done hskip hfollow hrest hyields _ hk

/-! ## Lines with one grammar -/

/-- **Lines that are evaluated one after the other** with one grammar, each to a reply and
in the state that the one before it left; and all that they report. -/
inductive Evaluates (options : ParseOptions) :
    Knots → List String → List (Reply Float) → List Event → Knots → Prop where
  | nil (k : Knots) : Evaluates options k [] [] [] k
  | cons {k k₁ k' : Knots} {line : String} {lines : List String} {reply : Reply Float}
      {replies : List (Reply Float)} {log log' : List Event}
      (first : parser.runWith line.toList options (budget line.toList) k
        = .done (.ok reply) log k₁)
      (rest : Evaluates options k₁ lines replies log' k') :
      Evaluates options k (line :: lines) (reply :: replies) (log ++ log') k'

/-- **The calculator obeys every law** that knows its grammar. -/
theorem parser_lawful (L : Law) {alive : List Nat} (hknows : L.knows grammar.name 2)
    (halive : grammar.name.scope ∈ alive) : parser.Lawful L alive := by
  have hreal : Parser.real.Lawful L alive := by
    refine .bind (.token _ _) fun text => ?_
    cases Decimal.value? text.toList with
    | none => exact .fail _
    | some x => exact .succeed x
  have hgrammar : (grammar.entry ⟨0, Nat.two_pos⟩).Lawful L alive := by
    refine .entry hknows halive (fun i handles => exists_rule handles i) ?_ _
    intro handles hhandles i p hp
    match i, p, hp with
    | 0, p, hp =>
      obtain rfl := Except.ok.inj ((sum_eq _).symm.trans hp)
      exact .foldSep (.foldSep (hhandles 1) (.token _ _) _) (.token _ _) _
    | 1, p, hp =>
      obtain rfl := Except.ok.inj hp
      exact .orElse hreal (.seqLeft (.seqRight (.token _ _) (hhandles 0)) (.token _ _))
  exact hgrammar.seqLeft (.endWith _)

/-- A run does to the state what one parser may do to it. -/
theorem leads_of_runWith (hskip : Compiles options.skip) (hfollow : Compiles options.follow)
    (hk : k.Owned) {line : Text} {b : Nat}
    (h : parser.runWith line options b k = .done (.ok reply) log k') :
    k.Leads (fun _ => some 2) log k' := by
  have horderly : (parser.runWith line options).Orderly (fun _ => some 2) [0] fun _ _ => True := by
    rw [Parser.runWith, ParseOptions.env_of_compiles hskip hfollow]
    exact (parser_lawful (.orderly fun _ => some 2) rfl (List.mem_singleton_self 0)).runIn
      (ParseOptions.env_lawful hskip hfollow _ _ line) _
  exact (horderly b k hk.1 (by simpa using hk.2)).leads log k' (.of_done h)

/-- **A run with a reply has built the grammar**, unless it was tied before. -/
theorem ruleBuilt_mem_of_runWith (hskip : Compiles options.skip)
    (hfollow : Compiles options.follow) (huntied : grammar.name ∉ k.tied) {line : Text} {b : Nat}
    (h : parser.runWith line options b k = .done (.ok reply) log k') :
    .ruleBuilt grammar.name 0 ∈ log := by
  have hstart : Text.IsBoundary options.start.toNat line := by
    obtain ⟨e, hrefusal⟩ | ⟨-, -, hstart⟩ := Parser.refusal_or line options
    · obtain ⟨_, hrefused⟩ := Parser.runWith_of_refusal hrefusal
      exact absurd ((hrefused parser b k).symm.trans h) (by simp)
    · exact hstart
  rw [Parser.runWith, ParseOptions.env_of_compiles hskip hfollow, Parser.runInE,
    parser.runIn_of_isBoundary hstart] at h
  obtain ⟨rest, rfl, hrest⟩ := Eval.leaves_emit_bind (.of_done h)
  -- the run is the parser, the parser begins with an expression, and that is a call
  refine List.mem_cons_of_mem _ (Eval.mem_of_leaves_bind (fun hrun => ?_) hrest)
  refine Eval.mem_of_leaves_bind (fun hcall => ?_) hrun
  have hcall : (grammar.call b ⟨0, Nat.two_pos⟩ _ _ b k).Leaves _ _ :=
    Knot.entry_run_apply _ _ _ _ _ ▸ hcall
  exact Knot.ruleBuilt_mem_of_call rfl huntied hcall

namespace Evaluates

/-- All lines together do to the state what one run may do to it. The induction is on the
lines. -/
theorem leads (h : Evaluates options k lines replies log k') (hskip : Compiles options.skip)
    (hfollow : Compiles options.follow) (hk : k.Owned) : k.Leads (fun _ => some 2) log k' := by
  induction h with
  | nil k => exact .refl hk.1
  | cons first rest ih =>
    have hfirst := leads_of_runWith hskip hfollow hk first
    exact hfirst.trans (ih ⟨hfirst.tidy, hfirst.live hk.2⟩)

/-- **The grammar is tied once**, whatever number of lines is evaluated with it. -/
theorem exists_tyingLog (h : Evaluates options .initial lines replies log k')
    (hskip : Compiles options.skip) (hfollow : Compiles options.follow) (hlines : lines ≠ []) :
    ∃ before rest, log = before ++ grammar.name.tyingLog 2 ++ rest ∧ Silent grammar.name before
      ∧ Silent grammar.name rest := by
  have hleads := h.leads hskip hfollow .initial
  cases h with
  | nil => exact absurd rfl hlines
  | cons first rest =>
    have hbuilt := ruleBuilt_mem_of_runWith hskip hfollow List.not_mem_nil first
    exact (hleads.knots grammar.name).exists_tyingLog rfl (List.mem_append_left _ hbuilt) rfl

end Evaluates

/-! ## Reports -/

/-- What is printed for a reply. -/
def Printed.ofReply : Reply Float → Printed
  | .ok _ _ x => .value x
  | .fail message about => .failure message about

namespace Report

/-- The report of one line that is replied to. -/
def ofReply (reply : Reply Float) : Report := ⟨[.ofReply reply], none, none⟩

/-- The report of what is printed later. -/
def after (earlier : List Printed) (r : Report) : Report :=
  { r with printed := earlier ++ r.printed }

theorem output_after (replies : List (Reply Float)) (r : Report) :
    (r.after (replies.map .ofReply)).output
      = String.join ((replies.map ofReply).map output) ++ r.output := by
  simp [after, output, ofReply, Function.comp_def]

theorem errors_after (replies : List (Reply Float)) (r : Report) :
    (r.after (replies.map .ofReply)).errors
      = String.join ((replies.map ofReply).map errors) ++ r.errors := by
  simp [after, errors, ofReply, Function.comp_def, String.append_assoc]

/-- **One line is printed for a reply**: its value on the output, or its failure on the
output for errors. -/
inductive Prints (r : Report) : Reply Float → Prop where
  | value {e : Env} {stop : Nat} {x : Float} (hline : OnOneLine (Decimal.Layout.plain.write x))
      (houtput : r.output = Decimal.Layout.plain.write x ++ "\n") (herrors : r.errors = "") :
      Prints r (.ok e stop x)
  | failure {message : String} {about : Option Nat} (hline : OnOneLine (failureText message about))
      (houtput : r.output = "") (herrors : r.errors = complaint (failureText message about)) :
      Prints r (.fail message about)

theorem prints_ofReply (h : reply.FailsAs IsComplaint) : (ofReply reply).Prints reply := by
  cases reply with
  | ok e stop x =>
    have hline : OnOneLine (Decimal.Layout.plain.write x) :=
      Decimal.Layout.onOneLine_write (by decide) x
    exact .value hline (by simp [ofReply, output, Printed.ofReply])
      (by simp [ofReply, errors, Printed.ofReply])
  | fail message about =>
    exact .failure (IsComplaint.onOneLine h) (by simp [ofReply, output, Printed.ofReply])
      (by simp [ofReply, errors, Printed.ofReply])

end Report

/-! ### The report of lines -/

/-- A line that is replied to is printed, and the next ones follow. -/
theorem evaluate_cons (h : parser.runWith line.toList options (budget line.toList) k
      = .done (.ok reply) log k') :
    evaluate options k (line :: lines)
      = (evaluate options k' lines).after [.ofReply reply] := by
  rw [evaluate, h]
  cases reply <;> rfl

/-- **A line that is refused is the last one.** -/
theorem evaluate_refused {e : RunError} (h : Refusal line.toList options e) (k : Knots)
    (later : List String) : evaluate options k (line :: later) = ⟨[], some e, none⟩ := by
  obtain ⟨log, hrefused⟩ := Parser.runWith_of_refusal h
  rw [evaluate, hrefused]

/-- **Lines that are replied to are printed**, and the next ones follow. -/
theorem Evaluates.evaluate_append (h : Evaluates options k lines replies log k') :
    evaluate options k (lines ++ later)
      = (evaluate options k' later).after (replies.map .ofReply) := by
  induction h with
  | nil k => rfl
  | cons first rest ih =>
    rw [List.cons_append, evaluate_cons first, ih]
    rfl

/-- **A run can begin in the line.** -/
def Begins (options : ParseOptions) (line : String) : Prop :=
  Text.IsBoundary options.start.toNat line.toList

instance (options : ParseOptions) (line : String) : Decidable (Begins options line) :=
  inferInstanceAs (Decidable (Text.IsBoundary _ _))

/-- Lines in which a run can begin are all replied to, and each of them as it is by itself. -/
theorem exists_evaluates (hskip : Compiles options.skip) (hfollow : Compiles options.follow)
    (hlines : ∀ line ∈ lines, Begins options line) (hk : 0 ∈ k.live) :
    ∃ replies log k', Evaluates options k lines replies log k'
      ∧ (∀ reply ∈ replies, reply.FailsAs IsComplaint)
      ∧ lines.map (fun line => evaluate options .initial [line]) = replies.map Report.ofReply := by
  induction lines generalizing k with
  | nil => exact ⟨[], [], k, .nil k, fun _ h => absurd h List.not_mem_nil, rfl⟩
  | cons line lines ih =>
    obtain ⟨reply, hreply, hruns⟩ := exists_reply hskip hfollow (hlines line List.mem_cons_self)
    obtain ⟨log, k₁, hdone, hk₁⟩ := hruns k hk
    obtain ⟨_, _, halone, -⟩ := hruns .initial (List.mem_singleton_self 0)
    obtain ⟨replies, log', k', hrest, hreplies, heach⟩ :=
      ih (fun line' h => hlines line' (List.mem_cons_of_mem line h)) hk₁
    refine ⟨reply :: replies, log ++ log', k', .cons hdone hrest,
      List.forall_mem_cons.mpr ⟨hreply, hreplies⟩, ?_⟩
    rw [List.map_cons, List.map_cons, heach, evaluate_cons halone]
    rfl

/-! ## Whole inputs -/

/-- The lines that are not blank. -/
def nonblank (lines : List String) : List String := lines.filter fun line => !isBlank line

/-- **The lines that are evaluated**: those before the first one in which no run can begin. -/
def evaluated (options : ParseOptions) (lines : List String) : List String :=
  (nonblank lines).takeWhile fun line => Begins options line

/-- **The line that is refused**: the first one in which no run can begin. -/
def refused? (options : ParseOptions) (lines : List String) : Option String :=
  (nonblank lines).find? fun line => ¬ Begins options line

theorem begins_of_mem_evaluated (h : line ∈ evaluated options lines) : Begins options line :=
  of_decide_eq_true (List.mem_takeWhile_imp (p := fun line => decide (Begins options line)) h)

/-- Without a line that is refused, all of them are evaluated. -/
theorem nonblank_of_refused?_eq_none (h : refused? options lines = none) :
    nonblank lines = evaluated options lines := by
  refine (List.takeWhile_eq_self_iff.mpr fun line hline => ?_).symm
  have hbegins := List.find?_eq_none.mp h line hline
  simpa using hbegins

/-- Otherwise those are that stand before it. -/
theorem nonblank_of_refused?_eq_some (h : refused? options lines = some line) :
    ¬ Begins options line ∧ ∃ later, nonblank lines = evaluated options lines ++ line :: later := by
  obtain ⟨hline, before, later, hsplit, hbefore⟩ := List.find?_eq_some_iff_append.mp h
  have hline : ¬ Begins options line := by simpa using hline
  have hevaluated : evaluated options lines = before := by
    rw [evaluated, hsplit, List.takeWhile_append_of_pos fun a ha => by simpa using hbefore a ha,
      List.takeWhile_cons_of_neg (by simpa using hline), List.append_nil]
  exact ⟨hline, later, hevaluated ▸ hsplit⟩

/-- A line in which no run can begin is refused. -/
theorem exists_refusal (h : ¬ Begins options line) : ∃ e, Refusal line.toList options e := by
  obtain hrefusal | ⟨-, -, hstart⟩ := Parser.refusal_or line.toList options
  · exact hrefusal
  · exact absurd hstart h

/-- An expression that is asked for is the only line, -/
theorem Invocation.run_expression {i : Invocation} (h : i.parseOptions = .ok options)
    (line input : String) :
    ({ i with expression := some line } : Invocation).run input
      = evaluate options .initial [line] := by
  have hoptions : ({ i with expression := some line } : Invocation).parseOptions = .ok options := h
  rw [run, hoptions]

/-- and where none is, the lines of the input are evaluated that are not blank. -/
theorem Invocation.run_input {i : Invocation} (hi : i.expression = none)
    (h : i.parseOptions = .ok options) {input : String} (hlines : Written lines input.toList) :
    i.run input = evaluate options .initial (nonblank lines) := by
  rw [run, h, hi, ← linesOf_eq_iff.mpr hlines]
  rfl

/-- **The lines of an input are evaluated one by one.** There are options with patterns that
compile, and an input in which any lines are written. `alone` is what comes of a line by
itself, asked for as an expression.

* The lines that are evaluated are those that are not blank, up to the first one in which no
  run can begin. They are evaluated in order and with one grammar, which is tied once for
  all of them.
* Each of them is replied to, and one line is printed for the reply: its value on the output,
  or its failure on the output for errors. The line by itself has the same report.
* The two outputs are those of these lines, one after the other. No failure ends them.
* If no line is refused, that is all, and the exit code is 0. If one is, its error is told
  behind the others, on a line of its own, whatever lines come later; and the exit code is 1. -/
theorem run_lines {input : String} (hlines : Written lines input.toList) {i : Invocation}
    (hi : i.expression = none) (hoptions : i.parseOptions = .ok options)
    (hskip : Compiles options.skip) (hfollow : Compiles options.follow) :
    let alone (line : String) : Report := ({ i with expression := some line } : Invocation).run ""
    let reports := (evaluated options lines).map alone
    (∃ replies log k', Evaluates options .initial (evaluated options lines) replies log k'
        ∧ (evaluated options lines ≠ [] → ∃ before rest,
          log = before ++ grammar.name.tyingLog 2 ++ rest ∧ Silent grammar.name before
            ∧ Silent grammar.name rest)
        ∧ reports = replies.map Report.ofReply
        ∧ ∀ reply ∈ replies, (Report.ofReply reply).Prints reply)
    ∧ (i.run input).output = String.join (reports.map Report.output)
    ∧ match refused? options lines with
      | none => (i.run input).errors = String.join (reports.map Report.errors)
          ∧ (i.run input).code = 0
      | some line => ∃ e, Refusal line.toList options e ∧ OnOneLine e.message
          ∧ alone line = ⟨[], some e, none⟩
          ∧ (i.run input).errors = String.join (reports.map Report.errors) ++ complaint e.message
          ∧ (i.run input).code = 1 := by
  intro alone reports
  have hbegins : ∀ line ∈ evaluated options lines, Begins options line :=
    fun line => begins_of_mem_evaluated
  obtain ⟨replies, log, k', hdone, hcomplaints, heach⟩ :=
    exists_evaluates hskip hfollow hbegins (k := .initial) (List.mem_singleton_self 0)
  have halone : alone = fun line => evaluate options .initial [line] :=
    funext fun line => Invocation.run_expression hoptions line ""
  have hreports : reports = replies.map Report.ofReply := by rw [← heach, ← halone]
  refine ⟨⟨replies, log, k', hdone, hdone.exists_tyingLog hskip hfollow, hreports,
    fun reply h => Report.prints_ofReply (hcomplaints reply h)⟩, ?_⟩
  rw [Invocation.run_input hi hoptions hlines, hreports]
  cases hrefused : refused? options lines with
  | none =>
    have hreport : evaluate options .initial (evaluated options lines ++ []) = _ :=
      hdone.evaluate_append
    rw [List.append_nil, ← nonblank_of_refused?_eq_none hrefused] at hreport
    rw [hreport, Report.output_after, Report.errors_after]
    exact ⟨String.append_empty, String.append_empty, rfl⟩
  | some line =>
    obtain ⟨hline, later, hsplit⟩ := nonblank_of_refused?_eq_some hrefused
    obtain ⟨e, he⟩ := exists_refusal hline
    rw [hsplit, hdone.evaluate_append, evaluate_refused he, Report.output_after,
      Report.errors_after]
    refine ⟨String.append_empty, e, he, he.onOneLine hskip hfollow, ?_, ?_, rfl⟩
    · rw [halone]
      exact evaluate_refused he .initial []
    · simp [Report.errors]

/-- A sum behind its first character, a blank line, a parenthesis that is not closed, and
then a line in which the run would begin inside of a character. -/
theorem run_lines_accent :
    let input := "=1+2\n  \r\n=(\né\n=3"
    let options : ParseOptions := { start := 1 }
    let i : Invocation := ⟨none, some (.holding (ParseOptions.record.toText options).toUTF8), none⟩
    let alone (line : String) : Report := ({ i with expression := some line } : Invocation).run ""
    Written ["=1+2", "  ", "=(", "é", "=3"] input.toList
    ∧ i.expression = none ∧ i.parseOptions = .ok options
    ∧ Compiles options.skip ∧ Compiles options.follow
    ∧ (i.run input).output = (alone "=1+2").output ++ (alone "=(").output
    ∧ (i.run input).errors = (alone "=1+2").errors ++ (alone "=(").errors
        ++ "Error: start position 1 is not on a char boundary\n"
    ∧ (i.run input).code = 1 := by
  intro input options i alone
  have hlines : Written ["=1+2", "  ", "=(", "é", "=3"] input.toList :=
    linesOf_eq_iff.mp (by decide)
  have hoptions : i.parseOptions = .ok options := by
    show (ParseOptions.record.ofFile (.holding _) >>= _) = _
    rw [ParseOptions.record_faithful.ofFile_toText]
    rfl
  have hnone : Compiles none := fun _ h => absurd h (by simp)
  have hevaluated : evaluated options ["=1+2", "  ", "=(", "é", "=3"] = ["=1+2", "=("] := by decide
  have hrefused : refused? options ["=1+2", "  ", "=(", "é", "=3"] = some "é" := by decide
  have hinside : Refusal "é".toList options (.notCharBoundary 1) :=
    .inside hnone hnone (by decide) (by decide)
  obtain ⟨-, houtput, hend⟩ := run_lines hlines rfl hoptions hnone hnone
  rw [hrefused] at hend
  obtain ⟨e, he, -, -, herrors, hcode⟩ := hend
  obtain rfl := Parser.refusal_unique he hinside
  have hcomplaint : complaint (RunError.notCharBoundary 1).message
      = "Error: start position 1 is not on a char boundary\n" := by decide
  rw [hevaluated] at houtput herrors
  rw [hcomplaint] at herrors
  exact ⟨hlines, rfl, hoptions, hnone, hnone, by simpa using houtput, by simpa using herrors, hcode⟩

/-! ## Inputs that are no text

The input of a run is bytes. If they are a text, it is the text that is evaluated. If they
are not, the lines are that stand in front of the first one that is no text, and the run
ends there. -/

/-- An input that is a text is evaluated as the text. -/
theorem Invocation.runOn_toUTF8 (i : Invocation) (input : String) :
    i.runOn input.toUTF8 = i.run input := by
  have htext : String.fromUTF8? input.toUTF8 = some input := by
    rw [String.fromUTF8?, String.toUTF8_eq_toByteArray, dif_pos input.isValidUTF8]
    rfl
  rw [runOn, htext]

/-- A line ends at its line feed. -/
theorem textInFront_go {line : List UInt8} (hline : 10 ∉ line) (read rest : List UInt8) :
    textInFront.go read (line ++ 10 :: rest)
      = match String.fromUTF8? ⟨(read.reverse ++ line).toArray⟩ with
        | some text => text ++ "\n" ++ textInFront.go [] rest
        | none => "" := by
  induction line generalizing read with
  | nil =>
    have hread : read.reverse ++ [] = read.reverse := List.append_nil _
    exact hread.symm ▸ if_pos rfl
  | cons byte line ih =>
    obtain ⟨hbyte, hline⟩ := not_or.mp (mt List.mem_cons.mpr hline)
    rw [List.cons_append, textInFront.go, if_neg (Ne.symm hbyte), ih hline]
    simp

/-- **Nothing in front of a line that is no text is lost.** The induction is on the lines. -/
theorem textInFront_eq {front : List (List UInt8)} {texts : List String}
    (hfront : List.Forall₂ (fun line text => 10 ∉ line
      ∧ String.fromUTF8? ⟨line.toArray⟩ = some text) front texts)
    {line : List UInt8} (hline : 10 ∉ line) (hnone : String.fromUTF8? ⟨line.toArray⟩ = none)
    (rest : List UInt8) :
    textInFront ⟨(front.flatMap (· ++ [10]) ++ line ++ 10 :: rest).toArray⟩
      = String.join (texts.map (· ++ "\n")) := by
  show textInFront.go [] (front.flatMap (· ++ [10]) ++ line ++ 10 :: rest) = _
  induction hfront with
  | nil =>
    show textInFront.go [] (line ++ 10 :: rest) = ""
    rw [textInFront_go hline, List.reverse_nil, List.nil_append, hnone]
  | @cons first text front texts hfirst hfront ih =>
    have hsplit : (first :: front).flatMap (· ++ [10]) ++ line ++ 10 :: rest
        = first ++ 10 :: (front.flatMap (· ++ [10]) ++ line ++ 10 :: rest) := by simp
    rw [hsplit, textInFront_go hfirst.1, List.reverse_nil, List.nil_append, hfirst.2]
    show text ++ "\n" ++ textInFront.go [] _ = _
    rw [ih, List.map_cons, String.join_cons]

/-- **An input that is no text** is evaluated like the text in front, and the exit code is 1. -/
theorem Invocation.runOn_not_text {i : Invocation} (hi : i.expression = none) {input : ByteArray}
    (hinput : String.fromUTF8? input = none) :
    (i.runOn input).printed = (i.run (textInFront input)).printed ∧ (i.runOn input).code = 1 := by
  rw [runOn, hinput, hi]
  show (if _ then _ else _ : Report).printed = _ ∧ (if _ then _ else _ : Report).code = 1
  split
  case isTrue h => exact ⟨rfl, if_pos (by simpa using h)⟩
  case isFalse h => exact ⟨rfl, rfl⟩

end Calculator

end Descent
