import Descent.Proofs.Calculator
import Descent.Proofs.Running

/-!
# The calculator nests no deeper than parentheses are opened

Whatever is skipped, the calculator replies to every line, and its rule of sums is
nested at most once more than parentheses are opened from the start of the run on
(`runWith_nests`). So two times as many calls as that are enough to spend, one of a sum
and one of a factor at each depth.

**What is skipped may be anything**: digits, operators, parentheses, or nothing. It does
not help to know what texts the parsers read, since none may be left. What carries over is
a bound on the text that is *left* (`Opens`). A token leaves an end of what it began at,
so no token raises the bound, and an opening parenthesis, wherever skipping ends before it,
lowers it (`opening_leaves`). A sum inside a sum is called behind one.

**Depth is counted by a parser.** In `nested d` the rules are put into one another `d`
times, and a rule that would be nested deeper gives up. The grammar and `nested d` are
compared as they run: `Parser.Leaves` is a statement about two parsers, that they have one
and the same reply at every text of a kind, and that a success leaves a text of another
kind. It passes through the combinators as a rule about one parser would.
-/

namespace Descent

/-! ## Two evaluations with one value -/

namespace Eval

variable {α β : Type} {scope : Nat} {x y : Eval α} {f g : α → Eval β}
variable {P : α → Prop} {Q : β → Prop}

/-- **Two evaluations yield one value**, at whatever budgets and from whatever states in
which a scope is alive, and it satisfies a predicate. -/
def BothYield (scope : Nat) (x y : Eval α) (P : α → Prop) : Prop :=
  ∃ a, P a ∧ x.Yields scope (· = a) ∧ y.Yields scope (· = a)

namespace BothYield

theorem pure {a : α} (h : P a) : BothYield scope (Pure.pure a) (Pure.pure a) P :=
  ⟨a, h, .pure rfl, .pure rfl⟩

theorem bind (hxy : BothYield scope x y P) (hfg : ∀ a, P a → BothYield scope (f a) (g a) Q) :
    BothYield scope (x >>= f) (y >>= g) Q := by
  obtain ⟨a, ha, hx, hy⟩ := hxy
  obtain ⟨b, hb, hf, hg⟩ := hfg a ha
  exact ⟨b, hb, hx.bind fun _ h => h ▸ hf, hy.bind fun _ h => h ▸ hg⟩

theorem mono {P' : α → Prop} (hxy : BothYield scope x y P) (h : ∀ a, P a → P' a) :
    BothYield scope x y P' := by
  obtain ⟨a, ha, hx, hy⟩ := hxy
  exact ⟨a, h a ha, hx, hy⟩

/-- One of the evaluations may be replaced by another one that yields what it does. -/
theorem of_left {z : Eval α} (hxy : BothYield scope x y P)
    (h : ∀ {R : α → Prop}, x.Yields scope R → z.Yields scope R) : BothYield scope z y P := by
  obtain ⟨a, ha, hx, hy⟩ := hxy
  exact ⟨a, ha, h hx, hy⟩

/-- An event before the rest is not compared. -/
theorem emit_bind (e : Event) {z w : Eval α} (h : BothYield scope z w P) :
    BothYield scope (Eval.emit e >>= fun _ => z) (Eval.emit e >>= fun _ => w) P := by
  obtain ⟨a, ha, hz, hw⟩ := h
  exact ⟨a, ha, (Yields.emit e).bind fun _ _ => hz, (Yields.emit e).bind fun _ _ => hw⟩

end BothYield

end Eval

/-! ## Two parsers that leave a text -/

/-- A success that leaves a text of a kind, or a failure. -/
def Reply.LeavesIn {α : Type} (e : Env) (S : Text → Prop) : Reply α → Prop
  | .ok e' stop _ => e' = e ∧ ∃ rest, e.from? stop = some rest ∧ S rest
  | .fail .. => True

namespace Parser

variable {α β δ : Type} {scope : Nat} {e : Env} {S S' S'' : Text → Prop}

/-- **Two parsers reply alike** wherever a text of a kind is left, and a success leaves a text
of another kind. -/
def Leaves (scope : Nat) (e : Env) (S S' : Text → Prop) (p q : Parser α) : Prop :=
  ∀ n rest, e.from? n = some rest → S rest →
    Eval.BothYield scope (p.run e n) (q.run e n) (Reply.LeavesIn e S')

namespace Leaves

variable {p q p' q' : Parser α}

theorem mono (h : Leaves scope e S S' p q) (hS : ∀ rest, S' rest → S'' rest) :
    Leaves scope e S S'' p q := by
  intro n rest hn hrest
  refine (h n rest hn hrest).mono fun r hr => ?_
  cases r with
  | ok e' stop a =>
    obtain ⟨rfl, left, hleft, hkind⟩ := hr
    exact ⟨rfl, left, hleft, hS left hkind⟩
  | fail message about => trivial

/-- **What comes second** begins at a text that the first part leaves. -/
theorem bindReply {x y : Eval (Reply α)} {f g : Reply α → Eval β} {Q : β → Prop}
    (hxy : Eval.BothYield scope x y (Reply.LeavesIn e S))
    (hok : ∀ stop a rest, e.from? stop = some rest → S rest →
      Eval.BothYield scope (f (.ok e stop a)) (g (.ok e stop a)) Q)
    (hfail : ∀ message about,
      Eval.BothYield scope (f (.fail message about)) (g (.fail message about)) Q) :
    Eval.BothYield scope (x >>= f) (y >>= g) Q := by
  refine hxy.bind fun r hr => ?_
  cases r with
  | ok e' stop a =>
    obtain ⟨rfl, rest, hrest, hkind⟩ := hr
    exact hok stop a rest hrest hkind
  | fail message about => exact hfail message about

theorem bind {f g : α → Parser β} (hp : Leaves scope e S S' p q)
    (hf : ∀ a, Leaves scope e S' S'' (f a) (g a)) : Leaves scope e S S'' (p.bind f) (q.bind g) :=
  fun n rest hn hrest => bindReply (hp n rest hn hrest) (fun stop a => hf a stop)
    fun _ _ => .pure trivial

theorem seqRight {r s : Parser β} (hp : Leaves scope e S S' p q) (hr : Leaves scope e S' S'' r s) :
    Leaves scope e S S'' (p.seqRight r) (q.seqRight s) :=
  hp.bind fun _ => hr

theorem seqLeft {r s : Parser β} (hp : Leaves scope e S S' p q) (hr : Leaves scope e S' S'' r s) :
    Leaves scope e S S'' (p.seqLeft r) (q.seqLeft s) := by
  refine fun n rest hn hrest => bindReply (hp n rest hn hrest) (fun stop a left hleft hkind => ?_)
    fun _ _ => .pure trivial
  exact bindReply (hr stop left hleft hkind)
    (fun stop' _ left' hleft' hkind' => .pure ⟨rfl, left', hleft', hkind'⟩) fun _ _ => .pure trivial

/-- A second alternative begins where the first one did. -/
theorem orElse (hp : Leaves scope e S S' p q) (hp' : Leaves scope e S S' p' q') :
    Leaves scope e S S' (p.orElse p') (q.orElse q') := by
  refine fun n rest hn hrest => bindReply (hp n rest hn hrest)
    (fun stop _ left hleft hkind => .pure ⟨rfl, left, hleft, hkind⟩) fun _ _ => ?_
  exact .emit_bind _ (hp' n rest hn hrest)

/-! ### Repetitions -/

variable {item item' : Parser α} {delimiter delimiter' : Parser δ} {f : α → δ → α → α}

/-- A round that is taken leaves a text of the kind. -/
theorem round (hitem : Leaves scope e S S item item')
    (hdelimiter : Leaves scope e S S delimiter delimiter') {n : Nat} {rest : Text}
    (hn : e.from? n = some rest) (hrest : S rest) :
    Eval.BothYield scope (Parser.round item delimiter e n) (Parser.round item' delimiter' e n)
      fun r => ∀ r', r = some r' → r'.env = e ∧ ∃ left, e.from? r'.stop = some left ∧ S left := by
  refine bindReply (hdelimiter n rest hn hrest) (fun middle d left hleft hkind => ?_)
    fun _ _ => .emit_bind _ (.pure (by simp))
  refine bindReply (hitem middle left hleft hkind) (fun stop a left' hleft' hkind' => ?_)
    fun _ _ => .emit_bind _ (.pure (by simp))
  by_cases hadvances : Parser.advances n stop = true
  · simp only [if_pos hadvances]
    refine .pure fun r' hr' => ?_
    obtain rfl := Option.some.inj hr'
    exact ⟨rfl, left', hleft', hkind'⟩
  · simp only [if_neg hadvances]
    exact .emit_bind _ (.pure (by simp))

/-- **Rounds leave a text of the kind** that their delimiters and items leave. -/
theorem rounds (hitem : Leaves scope e S S item item')
    (hdelimiter : Leaves scope e S S delimiter delimiter') (left : Nat) {n : Nat} {rest : Text}
    (hn : e.from? n = some rest) (hrest : S rest) :
    Eval.BothYield scope (Parser.rounds item delimiter left e n)
      (Parser.rounds item' delimiter' left e n)
      fun chain => ∀ a, (Round.reply e n chain a).LeavesIn e S := by
  have hnil : ∀ a : α, (Round.reply e n ([] : List (Round δ α)) a).LeavesIn e S :=
    fun _ => ⟨rfl, rest, hn, hrest⟩
  induction left generalizing n rest with
  | zero =>
    unfold Parser.rounds
    refine .bind (hitem.round hdelimiter hn hrest) fun r _ => ?_
    cases r <;> exact .pure hnil
  | succ left ih =>
    unfold Parser.rounds
    refine .bind (hitem.round hdelimiter hn hrest) fun r hr => ?_
    cases r with
    | none => exact .pure hnil
    | some r =>
      obtain ⟨e', stop, d, y⟩ := r
      obtain ⟨rfl, rest', hstop, hkind⟩ := hr _ rfl
      refine .bind (ih hstop hkind fun _ => ⟨rfl, rest', hstop, hkind⟩) fun chain hchain => ?_
      exact .pure hchain

theorem foldSep (hitem : Leaves scope e S S item item')
    (hdelimiter : Leaves scope e S S delimiter delimiter') :
    Leaves scope e S S (item.foldSep delimiter f) (item'.foldSep delimiter' f) := by
  rw [foldSep_eq_repetition, foldSep_eq_repetition]
  refine fun n rest hn hrest => bindReply (hitem n rest hn hrest)
    (fun stop a left hleft hkind => ?_) fun _ _ => .pure trivial
  exact .bind (hitem.rounds hdelimiter _ hleft hkind) fun chain hchain => .pure (hchain _)

end Leaves

end Parser

/-- **What a sound reader leaves** is an end of the text that it was given. -/
theorem Reader.Sound.exists_left {read : Reader} (hread : read.Sound) {e : Env} {n : Nat}
    {rest : Text} {m : Match} (hn : e.from? n = some rest) (hm : read rest = some m) :
    ∃ left, e.from? (n + m.size) = some left ∧ rest = m.passed ++ m.text ++ left := by
  obtain ⟨left, rfl⟩ := hread hm
  have hleft := Env.from?_add hn
  rw [Text.size_append] at hleft
  exact ⟨left, hleft, rfl⟩

/-- **Skipping leaves an end of the text** that it begins at, and has no effects. -/
def Env.SkipsText (e : Env) : Prop :=
  ∀ n rest, e.from? n = some rest →
    ∃ stop left, e.skipFrom n = pure stop ∧ e.from? stop = some left ∧ left <:+ rest

/-- A token that is skipped leaves an end of the text. -/
theorem Env.skipsText_of_token {e : Env} {read : Reader} (hread : read.Sound) {message : String}
    (h : e.skip = some (Parser.token read message).scan) : e.SkipsText := by
  intro n rest hn
  have hnew : (Env.new e.subject).from? n = some rest := hn
  have hrun := Parser.token_run_of_skipFrom rfl hnew read message
  cases hm : read rest with
  | none =>
    refine ⟨n, rest, ?_, hn, List.suffix_rfl⟩
    rw [Env.skipFrom, h]
    show ((Parser.token read message).run (Env.new e.subject) n >>= _) >>= _ = _
    rw [hrun, hm, Eval.pure_bind, Eval.pure_bind]
  | some m =>
    obtain ⟨left, hleft, htext⟩ := hread.exists_left hn hm
    refine ⟨n + m.size, left, ?_, hleft, ⟨_, htext.symm⟩⟩
    rw [Env.skipFrom, h]
    show ((Parser.token read message).run (Env.new e.subject) n >>= _) >>= _ = _
    rw [hrun, hm, Eval.pure_bind, Eval.pure_bind]
    exact congrArg pure (if_pos (Nat.le_add_right n m.size))

/-- **Whatever pattern is skipped**, an end of the text is left. -/
theorem Compiles.skipsText {skip : Option String} (h : Compiles skip) (line : Text)
    (follow : Option Scan) : (Env.mk line (patternScan skip) follow).SkipsText := by
  cases skip with
  | none => exact fun n rest hn => ⟨n, rest, rfl, hn, List.suffix_rfl⟩
  | some text =>
    obtain ⟨program, hprogram⟩ := h text rfl
    have hscan : patternScan (some text)
        = some (Parser.token program.find? ("Does not match pattern " ++ text)).scan := by
      rw [patternScan, Option.bind_some, Pattern.scan_text hprogram]
      rfl
    exact Env.skipsText_of_token (.find? program) hscan

namespace Parser

namespace Leaves

variable {scope : Nat} {e : Env} {S S' : Text → Prop} {read : Reader}

/-- **A token leaves what its reader leaves** of an end of the text. -/
theorem token (hskip : e.SkipsText) (hread : read.Sound) (message : String)
    (h : ∀ rest m left, S rest → m.passed ++ m.text ++ left <:+ rest →
      read (m.passed ++ m.text ++ left) = some m → S' left) :
    Leaves scope e S S' (Parser.token read message) (Parser.token read message) := by
  intro n rest hn hrest
  obtain ⟨stop, text, hstop, htext, hsuffix⟩ := hskip n rest hn
  rw [token_run_of_skipFrom hstop htext]
  cases hm : read text with
  | none => exact .pure trivial
  | some m =>
    obtain ⟨left, hleft, rfl⟩ := hread.exists_left htext hm
    exact .pure ⟨rfl, left, hleft, h rest m left hrest hsuffix hm⟩

/-- A token leaves a text of a kind that every end of a text is of. -/
theorem token_of_suffix (hskip : e.SkipsText) (hread : read.Sound) (message : String)
    (hS : ∀ rest left, S rest → left <:+ rest → S left) :
    Leaves scope e S S (Parser.token read message) (Parser.token read message) :=
  token hskip hread message fun rest _ left hrest hsuffix _ =>
    hS rest left hrest ((List.suffix_append _ left).trans hsuffix)

/-- The end leaves what is behind what is skipped. -/
theorem endWith (hskip : e.SkipsText) (message : String)
    (hS : ∀ rest left, S rest → left <:+ rest → S left) :
    Leaves scope e S S (Parser.endWith message) (Parser.endWith message) := by
  intro n rest hn hrest
  obtain ⟨stop, left, hstop, hleft, hsuffix⟩ := hskip n rest hn
  show Eval.BothYield scope (e.skipFrom n >>= _) (e.skipFrom n >>= _) _
  rw [hstop, Eval.pure_bind]
  split
  · exact .pure ⟨rfl, left, hleft, hS rest left hrest hsuffix⟩
  · exact .pure trivial

theorem succeed {α : Type} (a : α) :
    Leaves scope e S S (Parser.succeed a) (Parser.succeed a) :=
  fun _ rest hn hrest => .pure ⟨rfl, rest, hn, hrest⟩

theorem fail {α : Type} (message : String) :
    Leaves scope e S S' (Parser.fail (α := α) message) (Parser.fail message) :=
  fun _ _ _ _ => .pure trivial

end Leaves

end Parser

namespace Calculator

open Descent.Parser (Leaves)

/-! ## Parentheses -/

/-- **At most so many parentheses are opened** in a text. -/
def Opens (depth : Nat) (rest : Text) : Prop := rest.count '(' ≤ depth

theorem Opens.suffix {depth : Nat} (rest left : Text) (h : Opens depth rest)
    (hsuffix : left <:+ rest) : Opens depth left :=
  (hsuffix.sublist.count_le '(').trans h

/-- **The rules of the grammar, put into one another** so many times. -/
def nested : Nat → Parser Float
  | 0 => ⟨fun _ _ => Eval.giveUp⟩
  | depth + 1 => Level.sum.parser (factor (nested depth))

variable {e : Env} {depth : Nat}

/-- **Behind an opening parenthesis** there is one less to be opened. -/
theorem opening_leaves (hskip : e.SkipsText) :
    Leaves 0 e (Opens depth) (fun left => ∃ d, depth = d + 1 ∧ Opens d left) (Parser.string "(")
      (Parser.string "(") := by
  refine .token hskip (.exact _) _ fun rest m left hrest hsuffix hm => ?_
  obtain ⟨_, -, rfl⟩ := Option.map_eq_some_iff.mp hm
  have hcount : left.count '(' + 1 ≤ depth := by
    rw [← List.count_cons_self]
    exact Opens.suffix _ _ hrest hsuffix
  exact ⟨depth - 1, by omega, show _ ≤ _ by omega⟩

theorem real_leaves (hskip : e.SkipsText) :
    Leaves 0 e (Opens depth) (Opens depth) Parser.real Parser.real := by
  refine .bind (.token_of_suffix hskip .real _ Opens.suffix) fun text => ?_
  cases Decimal.value? text.toList with
  | none => exact .fail _
  | some x => exact .succeed x

theorem operator_leaves (hskip : e.SkipsText) (l : Level) :
    Leaves 0 e (Opens depth) (Opens depth) l.operator l.operator :=
  .token_of_suffix hskip (.find? _) _ Opens.suffix

theorem sum_leaves (hskip : e.SkipsText) {f g : Parser Float}
    (h : Leaves 0 e (Opens depth) (Opens depth) f g) :
    Leaves 0 e (Opens depth) (Opens depth) (Level.sum.parser f) (Level.sum.parser g) :=
  (h.foldSep (operator_leaves hskip .factor)).foldSep (operator_leaves hskip .product)

/-- **Sums in factors are called behind a parenthesis**, so nothing has to be known about them
where none is opened. -/
theorem factor_leaves (hskip : e.SkipsText) {p q : Parser Float}
    (h : ∀ d, depth = d + 1 → Leaves 0 e (Opens d) (Opens d) p q) :
    Leaves 0 e (Opens depth) (Opens depth) (factor p) (factor q) := by
  have hinner : Leaves 0 e (fun left => ∃ d, depth = d + 1 ∧ Opens d left) (Opens depth) p q := by
    rintro n rest hn ⟨d, hd, hrest⟩
    exact ((h d hd).mono fun _ => fun hleft => hleft.trans (by omega)) n rest hn hrest
  have hclosing : Leaves 0 e (Opens depth) (Opens depth) (Parser.string ")") (Parser.string ")") :=
    .token_of_suffix hskip (.exact _) _ Opens.suffix
  exact (real_leaves hskip).orElse (((opening_leaves hskip).seqRight hinner).seqLeft hclosing)

/-! ## Depth -/

/-- The handle of factors replies as a factor that nests sums as often as parentheses are
opened. The induction is on the parentheses: each of them pays for two calls, of a sum and of a
factor of it. -/
theorem factorAt_leaves (hskip : e.SkipsText) (depth : Nat) {b : Nat} (hb : 2 * depth + 1 ≤ b) :
    Leaves 0 e (Opens depth) (Opens depth) (factorAt b) (factor (nested depth)) := by
  induction depth generalizing b with
  | zero =>
    obtain ⟨b, rfl⟩ : ∃ b', b = b' + 1 := ⟨b - 1, by omega⟩
    have hfactor : Leaves 0 e (Opens 0) (Opens 0) (factor (sumAt b)) (factor (nested 0)) :=
      factor_leaves hskip fun d hd => absurd hd (Nat.succ_ne_zero d).symm
    exact fun n rest hn hrest => (hfactor n rest hn hrest).of_left yields_factorAt
  | succ depth ih =>
    obtain ⟨b, rfl⟩ : ∃ b', b = b' + 2 := ⟨b - 2, by omega⟩
    have hsum : Leaves 0 e (Opens depth) (Opens depth) (sumAt (b + 1)) (nested (depth + 1)) :=
      fun n rest hn hrest =>
        (sum_leaves hskip (ih (by omega)) n rest hn hrest).of_left yields_sumAt
    have hfactor : Leaves 0 e (Opens (depth + 1)) (Opens (depth + 1)) (factor (sumAt (b + 1)))
        (factor (nested (depth + 1))) := by
      refine factor_leaves hskip fun d hd => ?_
      obtain rfl := Nat.succ.inj hd
      exact hsum
    exact fun n rest hn hrest => (hfactor n rest hn hrest).of_left yields_factorAt

/-- **The calculator replies as its rules do that are nested** once more than parentheses are
opened. -/
theorem parserAt_leaves (hskip : e.SkipsText) (depth : Nat) {b : Nat} (hb : 2 * (depth + 1) ≤ b) :
    Leaves 0 e (Opens depth) (Opens depth) (parserAt b) ((nested (depth + 1)).seqLeft .atEnd) := by
  obtain ⟨b, rfl⟩ : ∃ b', b = b' + 1 := ⟨b - 1, by omega⟩
  have hsum : Leaves 0 e (Opens depth) (Opens depth)
      (.mk (grammar.call (b + 1) ⟨0, Nat.two_pos⟩)) (nested (depth + 1)) :=
    fun n rest hn hrest => (sum_leaves hskip (factorAt_leaves hskip depth (by omega)) n rest hn
      hrest).of_left yields_call_sum
  exact hsum.seqLeft (.endWith hskip _ Opens.suffix)

variable {line : Text} {options : ParseOptions} {rest : Text}

/-- A run as options say is done with what the parser yields in their environment. -/
theorem runWith_done {p : Parser Float} (hskip : Compiles options.skip)
    (hfollow : Compiles options.follow)
    (hstart : Text.from? options.start.toNat line = some rest) {reply : Reply Float}
    (h : (p.run ⟨line, patternScan options.skip, patternScan options.follow⟩
      options.start.toNat).Yields 0 (· = reply)) (b : Nat) {k : Knots} (hk : 0 ∈ k.live) :
    ∃ log k', p.runWith line options b k = .done (.ok reply) log k' ∧ 0 ∈ k'.live := by
  have hn : (Env.mk line (patternScan options.skip) (patternScan options.follow)).from?
      options.start.toNat = some rest := hstart
  obtain ⟨_, log, k', hdone, ⟨_, rfl, rfl⟩, hk'⟩ := Parser.yields_runIn hn h b k hk
  refine ⟨log, k', ?_, hk'⟩
  rw [Parser.runWith, ParseOptions.env_of_compiles hskip hfollow]
  exact hdone

/-- **The calculator replies to every line.** Whatever pattern is skipped, and wherever in the
line the run starts, there is a reply, and no call is nested that a parenthesis behind the start
does not pay for: two calls for each parenthesis that is opened there, and two more, are enough
to spend. The rule of sums, put into itself so often and not more, has the same reply. -/
theorem runWith_nests (hskip : Compiles options.skip) (hfollow : Compiles options.follow)
    (hstart : Text.from? options.start.toNat line = some rest) {k : Knots} (hk : 0 ∈ k.live) :
    ∃ reply, (∀ b, budget rest ≤ b →
        ∃ log k', parser.runWith line options b k = .done (.ok reply) log k' ∧ 0 ∈ k'.live)
      ∧ ∃ log k', ((nested (rest.count '(' + 1)).seqLeft .atEnd).runWith line options 0 k
        = .done (.ok reply) log k' := by
  have hboth {b : Nat} (hb : budget rest ≤ b) := parserAt_leaves
    (hskip.skipsText line (patternScan options.follow)) (rest.count '(') hb _ rest hstart le_rfl
  obtain ⟨reply, -, -, hnested⟩ := hboth le_rfl
  refine ⟨reply, fun b hb => ?_, ?_⟩
  · obtain ⟨reply', -, hgrammar, hnested'⟩ := hboth hb
    -- what is nested has one reply, whatever budget the grammar has
    obtain ⟨_, _, _, -, ⟨rfl, rfl⟩, -⟩ := (hnested.and hnested') 0 k hk
    obtain ⟨log, k', hdone, hk'⟩ := runWith_done hskip hfollow hstart hgrammar b hk
    refine ⟨log, k', ?_, hk'⟩
    rw [← hdone, Parser.runWith, Parser.runWith, ParseOptions.env_of_compiles hskip hfollow]
    exact runIn_apply _ _ b k
  · obtain ⟨log, k', hdone, -⟩ := runWith_done hskip hfollow hstart hnested 0 hk
    exact ⟨log, k', hdone⟩

/-- Digits and parentheses are skipped, from the second character on. -/
theorem runWith_nests_skipped :
    let options : ParseOptions := ⟨1, some "[(0-9]", none⟩
    ∃ reply log k',
      parser.runWith "1(((2".toList options 8 .initial = .done (.ok reply) log k' := by
  intro options
  have hskip : Compiles options.skip := .of_eq_ok rfl
  have hfollow : Compiles options.follow := fun _ h => absurd h (by simp [options])
  have hstart : Text.from? options.start.toNat "1(((2".toList = some "(((2".toList := rfl
  obtain ⟨reply, hreply, -⟩ := runWith_nests hskip hfollow hstart (k := .initial) (by decide)
  obtain ⟨log, k', hdone, -⟩ := hreply 8 (by decide)
  exact ⟨reply, log, k', hdone⟩

end Calculator

end Descent
