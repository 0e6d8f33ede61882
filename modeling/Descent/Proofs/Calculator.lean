import Descent.Proofs.Arithmetic
import Descent.Proofs.Classes
import Descent.Proofs.Reading
import Descent.Proofs.Tokens
import Descent.Proofs.Tying

/-!
# The calculator computes its language

The parser of the calculator accepts a line exactly if the line is a sentence of
its grammar, and yields the value of the sentence's only tree
(`runSkipping_sentence`).

**Tokens.** Blanks are skipped before each token, and the scan of the blanks is
without effects. So what a parser does depends on the text that is left alone,
and the parsers of the tokens are known by what they read.

**Completeness** (`Tree.reads`) is by induction on trees. A parser takes as much
as it can and never takes less later, so the text of a tree is read only where
it is followed by a text that `Stops` its level.

**Soundness** (`decides_factor`) is by induction on the calls that are left to
spend. It is also what shows that they are enough, on lines that are no
sentences too: a factor calls a sum only after an opening parenthesis.
-/

namespace Descent

namespace Calculator

open Descent.Parser (Reads Rejects Decides ReadsRest DecidesRest)

/-! ## The parsers of the grammar -/

/-- The operators of a level, as a class. -/
def Level.operators : Level → CharSet
  | factor => ⟨[(42, 42), (47, 47)]⟩
  | product => ⟨[(43, 43), (45, 45)]⟩
  | sum => .empty

/-- What is said where no operator of a level stands. -/
def Level.message : Level → String
  | factor => "Does not match pattern " ++ "[\\*/]"
  | _ => "Does not match pattern " ++ "[\\+\\-]"

/-- The parser of the operators of a level. -/
def Level.operator (l : Level) : Parser String := .matching (.single l.operators) l.message

/-- The class is that of the grammar. -/
theorem contains_operators_iff {l : Level} {c : Char} :
    l.operators.contains c = true ↔ l.IsOperator c := by
  cases l with
  | factor => exact CharSet.contains_two (a := '*') (b := '/')
  | product => exact CharSet.contains_two (a := '+') (b := '-')
  | sum => exact iff_of_false Bool.false_ne_true not_false

/-- The parser of a level, made of that of factors. -/
def Level.parser (factor : Parser Float) : Level → Parser Float
  | .factor => factor
  | .product => factor.foldSep Level.factor.operator operate
  | .sum => (factor.foldSep Level.factor.operator operate).foldSep Level.product.operator operate

/-- **The rule of sums is the parser of sums**: its patterns are valid, and they are
the classes of operators. -/
theorem sum_eq (factor : Parser Float) : sum factor = .ok (Level.sum.parser factor) := rfl

/-- The parser of blanks. -/
def blanks : Parser String :=
  .matching (.run Unicode.whiteSpace) ("Does not match pattern " ++ "\\s+")

theorem pattern_blanks : Parser.pattern "\\s+" = .ok blanks := rfl

/-- The environment of a line whose blanks are skipped. -/
def env (line : Text) : Env := (Env.new line).withSkip (some blanks.scan)

/-! ## Tokens

A token is a computation without effects once it is known what text is left: the
scan of the blanks is, since it reports nothing. -/

variable {line : Text} {n : Nat} {rest : Text}

/-- **Blanks are skipped** up to what is written. -/
theorem skipFrom_env (h : (env line).from? n = some rest) :
    (env line).skipFrom n
      = pure (n + Text.size (rest.takeWhile Unicode.whiteSpace.contains)) := by
  have hnew : (Env.new line).from? n = some rest := h
  show (blanks.scan line n >>= _) = _
  rw [Parser.scan, blanks, Parser.matching, Parser.token_run_of_skipFrom rfl hnew,
    Regex.Program.find?_run, Eval.pure_bind, Reader.run1]
  cases hblank : rest.takeWhile Unicode.whiteSpace.contains with
  | nil => exact Eval.pure_bind _ _
  | cons c cs =>
    refine (Eval.pure_bind _ _).trans ?_
    show pure (if n ≤ n + _ then n + _ else n) = _
    rw [if_pos (Nat.le_add_right n _), Match.size_here]

/-- The blanks before a token are passed over. -/
theorem token_run (h : (env line).from? n = some rest) (read : Reader) (message : String) :
    (Parser.token read message).run (env line) n
      = pure (match read (skip rest) with
        | some m => .ok (env line)
            (n + Text.size (rest.takeWhile Unicode.whiteSpace.contains) + m.size)
            (String.ofList m.text)
        | none => .fail message (some n)) := by
  refine Parser.token_run_of_skipFrom (skipFrom_env h) (Env.from?_add ?_) read message
  rw [skip, List.takeWhile_append_dropWhile]
  exact h

/-! ### What tokens read -/

/-- A token is read after blanks. -/
theorem reads_token {read : Reader} {message : String} {b w v x : Text} {c : Char} (hb : Blank b)
    (hw : w ++ v = c :: x) (hc : IsGraphic c) (hread : read (w ++ v) = some (.here w)) :
    Reads 0 (env line) (Parser.token read message) (b ++ w) (String.ofList w) v := by
  intro n hn
  rw [List.append_assoc, hw] at hn
  have htake : (b ++ c :: x).takeWhile Unicode.whiteSpace.contains = b := by
    rw [List.takeWhile_append_of_pos hb, List.takeWhile_cons_of_neg (by simp [hc.not_blank]),
      List.append_nil]
  rw [token_run hn, skip_append hb hc, ← hw, hread, hw, htake]
  refine .pure ?_
  show Reply.ok (env line) (n + Text.size b + (Match.here w).size) (String.ofList w) = _
  rw [Match.size_here, Text.size_append, Nat.add_assoc]

/-- A token that the reader does not find is rejected. -/
theorem rejects_token {read : Reader} {message : String} {rest : Text}
    (hread : read (skip rest) = none) : Rejects 0 (env line) (Parser.token read message) rest := by
  intro n hn
  rw [token_run hn, hread]
  exact .pure ⟨_, _, rfl⟩

/-- **A token is decided** by its reader, after blanks. -/
theorem decides_token {read : Reader} {message : String} {P : Text → Prop}
    (hread : ∀ rest m, read rest = some m → ∃ w v, m = .here w ∧ rest = w ++ v ∧ P w)
    (rest : Text) : Decides 0 (env line) (Parser.token read message) rest fun u a =>
      ∃ b w, u = b ++ w ∧ Blank b ∧ P w ∧ a = String.ofList w := by
  intro n hn
  rw [token_run hn]
  cases hm : read (skip rest) with
  | none => exact .pure (.inr ⟨_, _, rfl⟩)
  | some m =>
    obtain ⟨w, v, rfl, hskip, hw⟩ := hread _ m hm
    have hblank : Blank (rest.takeWhile Unicode.whiteSpace.contains) :=
      List.all_eq_true.mp List.all_takeWhile
    refine .pure (.inl ⟨_, v, _, ?_, ⟨_, w, rfl, hblank, hw, rfl⟩, ?_⟩)
    · rw [List.append_assoc, ← hskip, skip, List.takeWhile_append_dropWhile]
    · simp only [Match.size_here, Text.size_append, Nat.add_assoc]
      rfl

/-! ## The tokens of the grammar -/

theorem reads_operator {l : Level} {b v : Text} {c : Char} (hb : Blank b) (hc : l.IsOperator c) :
    Reads 0 (env line) l.operator (b ++ [c]) (String.singleton c) v := by
  refine reads_token hb (List.singleton_append) hc.isGraphic ?_
  rw [Regex.Program.find?_single, List.singleton_append, List.head?_cons, Option.filter_some,
    if_pos (contains_operators_iff.mpr hc)]
  rfl

theorem rejects_operator {l : Level} {v : Text} (hv : l.NoOperator v) :
    Rejects 0 (env line) l.operator v := by
  refine rejects_token ?_
  rw [Regex.Program.find?_single, Option.map_eq_none_iff, Option.filter_eq_none_iff]
  exact fun c hc h => hv c hc (contains_operators_iff.mp h)

theorem decides_operator (l : Level) (rest : Text) :
    Decides 0 (env line) l.operator rest fun u d =>
      ∃ b c, u = b ++ [c] ∧ Blank b ∧ l.IsOperator c ∧ d = String.singleton c := by
  have hread : ∀ rest m, (Regex.Program.single l.operators).find? rest = some m →
      ∃ w v, m = Match.here w ∧ rest = w ++ v ∧ ∃ c, w = [c] ∧ l.IsOperator c := by
    intro rest m hm
    rw [Regex.Program.find?_single] at hm
    obtain ⟨c, hc, rfl⟩ := Option.map_eq_some_iff.mp hm
    obtain ⟨hhead, hoperator⟩ := Option.filter_eq_some_iff.mp hc
    obtain ⟨v, rfl⟩ := List.head?_eq_some_iff.mp hhead
    exact ⟨[c], v, rfl, rfl, c, rfl, contains_operators_iff.mp hoperator⟩
  refine (decides_token hread rest).mono fun u d h => ?_
  obtain ⟨b, w, rfl, hb, ⟨c, rfl, hc⟩, rfl⟩ := h
  exact ⟨b, c, rfl, hb, hc, rfl⟩

/-- A literal is read where it ends. -/
theorem reads_real {b w v : Text} {x : Float} (hb : Blank b) (hw : IsReal w) (hv : EndsReal v)
    (hx : Decimal.value? w = some x) : Reads 0 (env line) Parser.real (b ++ w) x v := by
  obtain ⟨c, cs, hcs, hc⟩ := isGraphic_of_isReal hw
  obtain ⟨s, hs, htext⟩ := Decimal.spelling?_append hw hv
  have hread : Reader.real (w ++ v) = some (.here w) := by
    rw [Reader.real, hs, Option.map_some, htext]
  have htoken : Reads 0 (env line)
      (Parser.token Reader.real "Does not match the real number") (b ++ w)
      (String.ofList w) ([] ++ v) := reads_token hb (by rw [hcs]; rfl) hc hread
  rw [← List.append_nil (b ++ w)]
  refine htoken.bind fun n hn => ?_
  rw [String.toList_ofList, hx]
  exact .pure rfl

/-- No literal begins with an opening parenthesis. -/
theorem rejects_real {b x : Text} (hb : Blank b) :
    Rejects 0 (env line) Parser.real (b ++ '(' :: x) := by
  intro n hn
  have hread : Reader.real (skip (b ++ '(' :: x)) = none := by
    rw [skip_append hb ⟨by decide, by decide⟩]
    rfl
  refine .bind (rejects_token hread n hn) fun r hr => ?_
  obtain ⟨message, about, rfl⟩ := hr
  exact .pure ⟨message, about, rfl⟩

/-- Nothing more is read for the value of a literal. -/
theorem decides_value (text : String) (rest : Text) :
    Decides 0 (env line) (match Decimal.value? text.toList with
      | some x => Parser.succeed x
      | none => Parser.fail "Does not match the real number") rest
      fun w x => w = [] ∧ Decimal.value? text.toList = some x := by
  intro n hn
  cases Decimal.value? text.toList with
  | none => exact .pure (.inr ⟨_, _, rfl⟩)
  | some x => exact .pure (.inl ⟨[], rest, x, rfl, ⟨rfl, rfl⟩, rfl⟩)

theorem decides_real (rest : Text) : Decides 0 (env line) Parser.real rest fun u x =>
    ∃ b w, u = b ++ w ∧ Blank b ∧ IsReal w ∧ Decimal.value? w = some x := by
  have hread : ∀ rest m, Reader.real rest = some m →
      ∃ w v, m = Match.here w ∧ rest = w ++ v ∧ IsReal w := by
    intro rest m hm
    obtain ⟨s, hs, rfl⟩ := Option.map_eq_some_iff.mp hm
    obtain ⟨v, hv⟩ := Decimal.text_isPrefix_of_spelling? hs
    exact ⟨s.text, v, rfl, hv.symm, Decimal.isReal_of_spelling? hs⟩
  refine (decides_token hread rest).bind (fun _ v text _ _ => decides_value text v) ?_
  rintro u w text x ⟨b, w', rfl, hb, hw, rfl⟩ ⟨rfl, hx⟩
  rw [String.toList_ofList] at hx
  exact ⟨b, w', List.append_nil _, hb, hw, hx⟩

/-- A parenthesis is read. -/
theorem reads_string {s : String} {b v : Text} {c : Char} (hs : s.toList = [c]) (hb : Blank b)
    (hc : IsGraphic c) : Reads 0 (env line) (Parser.string s) (b ++ [c]) (String.ofList [c]) v := by
  refine reads_token hb List.singleton_append hc ?_
  rw [hs, Reader.exact, Text.dropExact?_eq_some_iff.mpr rfl]
  rfl

theorem decides_string {s : String} {c : Char} (hs : s.toList = [c]) (rest : Text) :
    Decides 0 (env line) (Parser.string s) rest fun u _ => ∃ b, u = b ++ [c] ∧ Blank b := by
  have hread : ∀ rest m, Reader.exact s.toList rest = some m →
      ∃ w v, m = Match.here w ∧ rest = w ++ v ∧ w = [c] := by
    intro rest m hm
    obtain ⟨v, hv, rfl⟩ := Option.map_eq_some_iff.mp hm
    rw [hs]
    exact ⟨[c], v, rfl, hs ▸ Text.dropExact?_eq_some_iff.mp hv, rfl⟩
  refine (decides_token hread rest).mono fun u a h => ?_
  obtain ⟨b, w, rfl, hb, rfl, -⟩ := h
  exact ⟨b, rfl, hb⟩

/-! ## The rules of the grammar -/

/-- The recursive grammar of the calculator. -/
def grammar : Knot (Parser.Types2 Float Float) :=
  Parser.knot2 ⟨0, []⟩ (fun _ factor => sum factor) fun sum _ => .ok (factor sum)

/-- The handle of factors with so many calls to spend. -/
def factorAt (b : Nat) : Parser Float := grammar.handlesAt b ⟨1, Nat.one_lt_two⟩

/-- The handle of sums with so many calls to spend. -/
def sumAt (b : Nat) : Parser Float := grammar.handlesAt b ⟨0, Nat.two_pos⟩

/-- The rules can be built from any handles. -/
theorem exists_rule (handles : (i : Fin 2) → Parser (Parser.Types2 Float Float i)) (i : Fin 2) :
    ∃ p, grammar.rule i handles = .ok p := by
  match i with
  | 0 => exact ⟨Level.sum.parser (handles 1), sum_eq _⟩
  | 1 => exact ⟨factor (handles 0), rfl⟩

/-- A call of sums runs the rule of sums with one call less to spend. -/
theorem yields_call_sum {b n : Nat} {e : Env} {Q : Reply Float → Prop}
    (h : ((Level.sum.parser (factorAt b)).run e n).Yields 0 Q) :
    (grammar.call (b + 1) 0 e n).Yields 0 Q := by
  have hrule : grammar.rule 0 (grammar.handlesAt b) = .ok (Level.sum.parser (factorAt b)) :=
    sum_eq _
  exact Knot.yields_call (exists_rule _) hrule h

/-- The handle of sums runs the rule of sums with one call less to spend. -/
theorem yields_sumAt {b n : Nat} {e : Env} {Q : Reply Float → Prop}
    (h : ((Level.sum.parser (factorAt b)).run e n).Yields 0 Q) :
    ((sumAt (b + 1)).run e n).Yields 0 Q := by
  have hcall : (grammar.call (b + 1) 0 e n).Yields grammar.name.scope Q := yields_call_sum h
  exact Knot.yields_handle hcall

/-- The handle of factors runs the rule of factors with one call less to spend. -/
theorem yields_factorAt {b n : Nat} {e : Env} {Q : Reply Float → Prop}
    (h : ((factor (sumAt b)).run e n).Yields 0 Q) :
    ((factorAt (b + 1)).run e n).Yields 0 Q := by
  have hrule : grammar.rule 1 (grammar.handlesAt b) = .ok (factor (sumAt b)) := rfl
  exact Knot.yields_handle (Knot.yields_call (exists_rule _) hrule h)

/-! ### What calls pay for -/

/-- **There are calls enough to spend on a text**: one for a factor, and two more for
every parenthesis that is opened. -/
def Affordable (b : Nat) (u : Text) : Prop := 2 * u.count '(' + 1 ≤ b

namespace Affordable

variable {b : Nat} {u v : Text}

theorem exists_succ (h : Affordable b u) : ∃ b', b = b' + 1 := by
  unfold Affordable at h
  exact ⟨b - 1, by omega⟩

theorem left (h : Affordable b (u ++ v)) : Affordable b u := by
  unfold Affordable at h ⊢
  rw [List.count_append] at h
  omega

theorem right (h : Affordable b (u ++ v)) : Affordable b v := by
  unfold Affordable at h ⊢
  rw [List.count_append] at h
  omega

/-- **A parenthesis pays for two calls**: of the sum inside and of a factor of it. -/
theorem inside (h : Affordable b (u ++ '(' :: v)) : ∃ b', b = b' + 2 ∧ Affordable b' v := by
  unfold Affordable at h ⊢
  rw [List.count_append, List.count_cons_self] at h
  exact ⟨b - 2, by omega, by omega⟩

end Affordable

/-! ## Completeness -/

mutual

/-- **Every tree is read where it ends**, and its value is yielded, if there are
calls enough to spend on it. -/
theorem Tree.reads (hline : Text.size line ≤ maxPosition) : {l : Level} → (t : Tree l) →
    {u : Text} → t.Spells u → ∃ x, t.value? = some x ∧ ∀ b v, Affordable b u →
      l.Stops v → Reads 0 (env line) (l.parser (factorAt b)) u x v
  | _, .real text, _, h => by
    cases h with
    | @real blanks _ hblank hw =>
      obtain ⟨x, hx⟩ := Decimal.value?_isSome hw
      refine ⟨x, hx, fun b v hb hv => ?_⟩
      obtain ⟨b, rfl⟩ := hb.exists_succ
      exact fun n hn => yields_factorAt ((reads_real hblank hw hv hx).orElse_left n hn)
  | _, .parens sum, _, h => by
    cases h with
    | @parens before after u _ hbefore hu hafter =>
      obtain ⟨x, hx, hsum⟩ := sum.reads hline hu
      refine ⟨x, hx, fun b v hb hv => ?_⟩
      obtain ⟨b, rfl, hinside⟩ := hb.inside
      have hopen : Reads 0 (env line) (Parser.string "(") (before ++ ['(']) "("
          (u ++ (after ++ [')'] ++ v)) := reads_string rfl hbefore ⟨by decide, by decide⟩
      have hclose : Reads 0 (env line) (Parser.string ")") (after ++ [')']) ")" v :=
        reads_string rfl hafter ⟨by decide, by decide⟩
      have hstops : Level.sum.Stops (after ++ [')'] ++ v) := by
        rw [List.append_assoc]
        exact stops_of_close hafter .sum
      have hinner : Reads 0 (env line) (sumAt (b + 1)) u x (after ++ [')'] ++ v) :=
        fun n hn => yields_sumAt (hsum b _ hinside.left hstops n hn)
      have htext : before ++ '(' :: (u ++ (after ++ [')']))
          = (before ++ ['(']) ++ u ++ (after ++ [')']) := by
        simp only [List.append_assoc, List.cons_append, List.nil_append]
      intro n hn
      -- no literal begins with a parenthesis, so the other alternative is tried
      refine yields_factorAt (Reads.orElse_right ?_ ?_ n hn)
      · rw [List.append_assoc, List.cons_append]
        exact rejects_real hbefore
      · rw [htext]
        exact (hopen.seqRight hinner).seqLeft hclose
  | _, .product first rest, _, h => by
    cases h with
    | @product u w _ _ hu hw =>
      obtain ⟨y, hy, hfirst⟩ := first.reads hline hu
      obtain ⟨x, hx, hrest⟩ := rest.reads hline hw y
      refine ⟨x, by rw [Tree.value?, hy, Option.bind_some, hx], fun b v hb hv => ?_⟩
      exact .foldSep hline (hfirst b _ hb.left (hw.stops hv.1)) (hrest b v hb.right hv.1 hv.2)
  | _, .sum first rest, _, h => by
    cases h with
    | @sum u w _ _ hu hw =>
      obtain ⟨y, hy, hfirst⟩ := first.reads hline hu
      obtain ⟨x, hx, hrest⟩ := rest.reads hline hw y
      refine ⟨x, by rw [Tree.value?, hy, Option.bind_some, hx], fun b v hb hv => ?_⟩
      exact .foldSep hline (hfirst b _ hb.left (hw.stops hv.1)) (hrest b v hb.right hv.1 hv.2)

/-- More parts are read in rounds, up to where no operator of their level stands. -/
theorem Rest.reads (hline : Text.size line ≤ maxPosition) : {l : Level} → (r : Rest l) →
    {w : Text} → r.Spells w → ∀ acc, ∃ x, r.foldFrom? acc = some x ∧
      ∀ b v, Affordable b w → l.Stops v → l.NoOperator v →
        ReadsRest 0 (env line) (l.parser (factorAt b)) l.operator operate w v acc x
  | _, .nil, _, h, acc => by
    cases h with
    | nil => exact ⟨acc, rfl, fun b v _ _ hv => .nil (rejects_operator hv)⟩
  | _, .cons c item rest, _, h, acc => by
    cases h with
    | @cons _ before u w _ _ _ hbefore hc hu hw =>
      obtain ⟨y, hy, hitem⟩ := item.reads hline hu
      obtain ⟨x, hx, hrest⟩ := rest.reads hline hw (operate acc (String.singleton c) y)
      refine ⟨x, by rw [Rest.foldFrom?, hy, Option.bind_some, hx], fun b v hb hv hnone => ?_⟩
      have htext : before ++ c :: (u ++ w) = (before ++ [c]) ++ (u ++ w) := by
        simp only [List.append_assoc, List.cons_append, List.nil_append]
      rw [htext] at hb ⊢
      have hsize : 0 < Text.size (before ++ [c] ++ u) := by
        have hpos : 0 < c.utf8Size := c.utf8Size_pos
        simp only [Text.size_append, Text.size_cons]
        omega
      exact .cons hline hsize (reads_operator hbefore hc)
        (hitem b _ hb.right.left (hw.stops hv)) (hrest b v hb.right.right hv hnone)

end

/-! ## Soundness -/

/-- A text that a tree with a value is read from. -/
def IsTree (l : Level) (u : Text) (x : Float) : Prop := ∃ t : Tree l, t.Spells u ∧ t.value? = some x

/-- A text that more parts are read from, and what they make of a value. -/
def IsRest (l : Level) (w : Text) (f : Float → Float) : Prop :=
  ∃ r : Rest l, r.Spells w ∧ ∀ acc, r.foldFrom? acc = some (f acc)

/-- **Rounds read more parts of a level**, if items read such parts. -/
theorem decidesRest_level {l : Level} {b : Nat}
    (hitem : ∀ rest, Affordable b rest → Decides 0 (env line) item rest (IsTree l))
    (hrest : Affordable b rest) :
    DecidesRest 0 (env line) item l.operator operate rest (IsRest l) := by
  refine Parser.decidesRest (fun _ _ => Affordable.right) (fun rest _ => decides_operator l rest)
    hitem ⟨.nil, .nil, fun acc => rfl⟩ ?_ hrest
  rintro _ _ u₂ y w f ⟨before, c, rfl, hbefore, hc, rfl⟩ ⟨t, ht, hy⟩ ⟨r, hr, hf⟩
  refine ⟨.cons c t r, ?_, fun acc => ?_⟩
  · rw [List.append_assoc, List.singleton_append]
    exact .cons hbefore hc ht hr
  · rw [Rest.foldFrom?, hy, Option.bind_some, hf]

/-- Products are read if factors are. -/
theorem decides_product {b : Nat}
    (hfactor : ∀ rest, Affordable b rest → Decides 0 (env line) (factorAt b) rest (IsTree .factor))
    (rest : Text) (hrest : Affordable b rest) :
    Decides 0 (env line) (Level.product.parser (factorAt b)) rest (IsTree .product) := by
  refine (hfactor rest hrest).foldSep
    (fun u v huv => decidesRest_level hfactor (huv ▸ hrest).right) ?_
  rintro u w y f ⟨t, ht, hy⟩ ⟨r, hr, hf⟩
  exact ⟨.product t r, .product ht hr, by rw [Tree.value?, hy, Option.bind_some, hf]⟩

/-- Sums are read if factors are. -/
theorem decides_sum {b : Nat}
    (hfactor : ∀ rest, Affordable b rest → Decides 0 (env line) (factorAt b) rest (IsTree .factor))
    (rest : Text) (hrest : Affordable b rest) :
    Decides 0 (env line) (Level.sum.parser (factorAt b)) rest (IsTree .sum) := by
  refine (decides_product hfactor rest hrest).foldSep
    (fun u v huv => decidesRest_level (decides_product hfactor) (huv ▸ hrest).right) ?_
  rintro u w y f ⟨t, ht, hy⟩ ⟨r, hr, hf⟩
  exact ⟨.sum t r, .sum ht hr, by rw [Tree.value?, hy, Option.bind_some, hf]⟩

/-- **Whatever is read as a factor is one**, and every text is decided that does not
open more parentheses than there are calls to spend for. The induction is on the
calls: a factor calls a sum only after an opening parenthesis. -/
theorem decides_factor (b : Nat) : ∀ rest, Affordable b rest →
    Decides 0 (env line) (factorAt b) rest (IsTree .factor) := by
  induction b using Nat.strongRecOn with
  | ind b ih =>
    intro rest hrest n hn
    obtain ⟨b, rfl⟩ := hrest.exists_succ
    refine yields_factorAt (Decides.orElse ?_ ?_ n hn)
    · refine (decides_real rest).mono ?_
      rintro _ x ⟨before, w, rfl, hbefore, hw, hx⟩
      exact ⟨.real w, .real hbefore hw, hx⟩
    · have hopen : Decides 0 (env line) (Parser.string "(") rest fun u _ =>
          ∃ before, u = before ++ ['('] ∧ Blank before := decides_string rfl rest
      have hopened : Decides 0 (env line) ((Parser.string "(").seqRight (sumAt b)) rest fun u x =>
          ∃ before w, u = before ++ ['('] ++ w ∧ Blank before ∧ IsTree .sum w x := by
        refine hopen.seqRight ?_
          fun u w _ x ⟨before, hu, hbefore⟩ hw => ⟨before, w, by rw [hu], hbefore, hw⟩
        rintro _ v _ rfl ⟨before, rfl, -⟩
        -- the parenthesis pays for the sum inside and for the factors of that sum
        rw [List.append_assoc, List.singleton_append] at hrest
        obtain ⟨b, hb, hinside⟩ := hrest.inside
        obtain rfl := Nat.succ.inj hb
        exact fun n hn => yields_sumAt (decides_sum (ih b (by omega)) v hinside n hn)
      have hclose : ∀ v, Decides 0 (env line) (Parser.string ")") v fun u _ =>
          ∃ after, u = after ++ [')'] ∧ Blank after := decides_string rfl
      refine hopened.seqLeft (fun _ v _ _ _ => hclose v) ?_
      rintro _ _ x _ ⟨before, u, rfl, hbefore, t, ht, hx⟩ ⟨after, rfl, hafter⟩
      refine ⟨.parens t, ?_, hx⟩
      have htext := Tree.Spells.parens hbefore ht hafter
      simp only [List.append_assoc, List.cons_append, List.nil_append] at htext ⊢
      exact htext

/-! ## Whole lines -/

/-- **The end is where only blanks are left.** -/
theorem atEnd_run (h : (env line).from? n = some rest) :
    (Blank rest ∧ Parser.atEnd.run (env line) n = pure (.ok (env line) (Text.size line) ()))
      ∨ ¬Blank rest ∧ ∃ message about,
        Parser.atEnd.run (env line) n = pure (.fail message about) := by
  have hend : n + Text.size rest = Text.size line := Env.add_size_eq h
  have hsize := congrArg Text.size
    (List.takeWhile_append_dropWhile (p := Unicode.whiteSpace.contains) (l := rest))
  have hrun : Parser.atEnd.run (env line) n
      = if (env line).length ≤ n + Text.size (rest.takeWhile Unicode.whiteSpace.contains)
        then pure (.ok (env line)
          (n + Text.size (rest.takeWhile Unicode.whiteSpace.contains)) ())
        else pure (.fail "Not reached to end of parsing" (some n)) := by
    show ((env line).skipFrom n >>= _) = _
    rw [skipFrom_env h, Eval.pure_bind]
  rw [Text.size_append] at hsize
  rw [hrun]
  cases hskip : rest.dropWhile Unicode.whiteSpace.contains with
  | nil =>
    rw [hskip, Text.size_nil] at hsize
    have hstop : n + Text.size (rest.takeWhile Unicode.whiteSpace.contains) = Text.size line := by
      omega
    refine .inl ⟨List.dropWhile_eq_nil_iff.mp hskip, ?_⟩
    rw [hstop]
    exact if_pos (Nat.le_refl _)
  | cons c cs =>
    rw [hskip, Text.size_cons] at hsize
    have hpos : 0 < c.utf8Size := c.utf8Size_pos
    have hshort : ¬(env line).length
        ≤ n + Text.size (rest.takeWhile Unicode.whiteSpace.contains) := by
      show ¬Text.size line ≤ _
      omega
    refine .inr ⟨fun hblank => ?_, "Not reached to end of parsing", some n, by rw [if_neg hshort]⟩
    have hnil := List.dropWhile_eq_nil_iff.mpr hblank
    rw [hskip] at hnil
    exact absurd hnil (List.cons_ne_nil c cs)

/-- The calculator with so many calls to spend. -/
def parserAt (b : Nat) : Parser Float :=
  (Parser.mk (grammar.call b ⟨0, Nat.two_pos⟩)).seqLeft .atEnd

/-- The calculator spends what the run has to spend. -/
theorem runIn_apply (e : Env) (n b : Nat) (k : Knots) :
    parser.runIn e n b k = (parserAt b).runIn e n b k := by
  have hexpression : ∀ k, expression.run e n b k = grammar.call b 0 e n b k :=
    Knot.entry_run_apply 0 e n b
  have hrun : ∀ k, parser.run e n b k = (parserAt b).run e n b k := by
    intro k
    show (expression.run e n >>= _) b k = (grammar.call b 0 e n >>= _) b k
    rw [Eval.bind_apply, Eval.bind_apply, hexpression]
  unfold Parser.runIn
  rw [Eval.bind_apply, Eval.bind_apply]
  simp only [Eval.emit]
  split
  · rfl
  · split
    · rfl
    · rw [Eval.bind_apply, Eval.bind_apply, hrun]

/-- A run that skips blanks is a run in the environment of the line. -/
theorem runSkipping_apply (line : Text) (b : Nat) (k : Knots) :
    parser.runSkipping line (.text "\\s+") b k = (parserAt b).runIn (env line) 0 b k := by
  rw [Parser.runSkipping, Parser.runFromSkipping, Pattern.scan, pattern_blanks]
  exact runIn_apply (env line) 0 b k

/-- **Whatever is accepted is a sentence**, and what it is accepted with is its value. -/
theorem parserAt_sound {b : Nat} (hb : Affordable b line) :
    ((parserAt (b + 1)).run (env line) 0).Yields 0 fun r =>
      (∃ tree x, Sentence tree line ∧ tree.value? = some x
        ∧ r = .ok (env line) (Text.size line) x)
      ∨ ∃ message about, r = .fail message about := by
  have hstart : (env line).from? 0 = some line := Text.from?_zero line
  have hsum := yields_call_sum (decides_sum (decides_factor b) line hb 0 hstart)
  refine .bind hsum fun r hr => ?_
  obtain ⟨u, v, x, huv, ⟨tree, hu, hx⟩, rfl⟩ | ⟨message, about, rfl⟩ := hr
  · have hv : (env line).from? (0 + Text.size u) = some v := Env.from?_add (huv ▸ hstart)
    show (Parser.atEnd.run (env line) (0 + Text.size u) >>= _).Yields 0 _
    obtain ⟨hblank, hend⟩ | ⟨-, message, about, hend⟩ := atEnd_run hv
    · rw [hend, Eval.pure_bind]
      exact .pure (.inl ⟨tree, x, ⟨u, v, hu, hblank, huv⟩, hx, rfl⟩)
    · rw [hend, Eval.pure_bind]
      exact .pure (.inr ⟨message, about, rfl⟩)
  · exact .pure (.inr ⟨message, about, rfl⟩)

/-- **Every sentence is accepted.** -/
theorem parserAt_complete (hline : Text.size line ≤ maxPosition) {b : Nat}
    (hb : Affordable b line) {tree : Tree .sum} (htree : Sentence tree line) :
    ((parserAt (b + 1)).run (env line) 0).Yields 0 fun r => r.isOk = true := by
  obtain ⟨u, v, hu, hv, huv⟩ := htree
  have hstart : (env line).from? 0 = some (u ++ v) := by
    rw [← huv]
    exact Text.from?_zero line
  obtain ⟨x, -, hreads⟩ := tree.reads hline hu
  rw [huv] at hb
  have hsum := yields_call_sum (hreads b v hb.left (stops_of_blank hv .sum) 0 hstart)
  refine .bind hsum fun r hr => ?_
  rw [hr]
  show (Parser.atEnd.run (env line) (0 + Text.size u) >>= _).Yields 0 _
  obtain ⟨-, hend⟩ | ⟨hblank, -⟩ := atEnd_run (Env.from?_add hstart)
  · rw [hend, Eval.pure_bind]
    exact .pure rfl
  · exact absurd hv hblank

/-- A run yields a reply that tells whether the line is a sentence. -/
theorem parserAt_yields (hline : Text.size line ≤ maxPosition) {b : Nat}
    (hb : Affordable b line) :
    ((parserAt (b + 1)).run (env line) 0).Yields 0 fun r =>
      ((∃ tree x, Sentence tree line ∧ tree.value? = some x
        ∧ r = .ok (env line) (Text.size line) x)
      ∨ ∃ message about, r = .fail message about)
      ∧ ((∃ tree, Sentence tree line) → r.isOk = true) := by
  by_cases hsentence : ∃ tree, Sentence tree line
  · obtain ⟨tree, htree⟩ := hsentence
    exact ((parserAt_sound hb).and (parserAt_complete hline hb htree)).mono
      fun r hr => ⟨hr.1, fun _ => hr.2⟩
  · exact (parserAt_sound hb).mono fun r hr => ⟨hr, fun h => absurd h hsentence⟩

/-- **The calculator accepts the sentences of its grammar**, and no other line: it
reads a sentence to its end and yields the value of its only tree. -/
theorem runSkipping_sentence {line : Text} (hline : Text.size line ≤ maxPosition) {b : Nat}
    (hb : budget line ≤ b) {k : Knots} (hk : 0 ∈ k.live) :
    ∃ reply log k', parser.runSkipping line (.text "\\s+") b k = .done (.ok reply) log k'
      ∧ 0 ∈ k'.live ∧ (reply.isOk = true ↔ ∃ tree, Sentence tree line)
      ∧ ∀ e stop x, reply = .ok e stop x → stop = Text.size line
        ∧ ∃ tree, Sentence tree line ∧ tree.value? = some x
          ∧ ∀ tree', Sentence tree' line → tree' = tree := by
  unfold budget at hb
  obtain ⟨b, rfl⟩ : ∃ b', b = b' + 1 := ⟨b - 1, by omega⟩
  have haffordable : Affordable b line := by
    unfold Affordable
    omega
  have hstart : (env line).from? 0 = some line := Text.from?_zero line
  obtain ⟨_, log, k', hdone, ⟨reply, rfl, hreply, haccepts⟩, hk'⟩ :=
    Parser.yields_runIn hstart (parserAt_yields hline haffordable) (b + 1) k hk
  refine ⟨reply, log, k', (runSkipping_apply line _ k).trans hdone, hk', ⟨?_, haccepts⟩, ?_⟩
  · intro hok
    obtain ⟨tree, _, htree, -, -⟩ | ⟨message, about, rfl⟩ := hreply
    · exact ⟨tree, htree⟩
    · exact absurd hok (by simp [Reply.isOk])
  · rintro e stop x rfl
    obtain ⟨tree, y, htree, hy, hr⟩ | ⟨message, about, hr⟩ := hreply
    · obtain ⟨-, rfl, rfl⟩ := Reply.ok.inj hr
      exact ⟨rfl, tree, htree, hy, fun tree' h' => sentence_unique h' htree⟩
    · exact absurd hr (by simp)

/-- A sign that is spaced like the sign of a literal is an operator where one may stand. -/
theorem runSkipping_sentence_spaced :
    let line : Text := ['1', ' ', '-', '2']
    Text.size line ≤ maxPosition ∧ budget line ≤ 2 ∧ 0 ∈ Knots.initial.live
    ∧ ∃ e x log k', parser.runSkipping line (.text "\\s+") 2 .initial
        = .done (.ok (.ok e 4 x)) log k'
      ∧ (Tree.sum (.product (.real ['1']) .nil)
          (.cons '-' (.product (.real ['2']) .nil) .nil)).value? = some x := by
  intro line
  have hdigit : ∀ c : Char, c.isDigit = true → IsReal [c] := by
    intro c hc
    have hdigits : IsDigits [c] := ⟨List.cons_ne_nil c [], by simpa using hc⟩
    exact .intro .none (.whole hdigits) .none
  have hfactor : ∀ c : Char, c.isDigit = true →
      (Tree.product (.real [c]) .nil).Spells [c] := by
    intro c hc
    exact .product (.real (b := []) (fun _ h => absurd h List.not_mem_nil) (hdigit c hc)) .nil
  have hspace : Blank [' '] := by
    intro c hc
    rw [List.mem_singleton.mp hc]
    rfl
  have hminus : Level.product.IsOperator '-' := Or.inr rfl
  have hsentence : Sentence (.sum (.product (.real ['1']) .nil)
      (.cons '-' (.product (.real ['2']) .nil) .nil)) line := by
    refine ⟨line, [], .sum (hfactor '1' rfl) ?_, fun _ h => absurd h List.not_mem_nil, rfl⟩
    exact .cons hspace hminus (hfactor '2' rfl) .nil
  have hline : Text.size line ≤ maxPosition := by decide
  have hbudget : budget line ≤ 2 := by decide
  have hlive : 0 ∈ Knots.initial.live := by decide
  obtain ⟨reply, log, k', hdone, -, hiff, hvalue⟩ := runSkipping_sentence hline hbudget hlive
  obtain ⟨e, stop, x, rfl⟩ : ∃ e stop x, reply = .ok e stop x := by
    cases reply with
    | ok e stop x => exact ⟨e, stop, x, rfl⟩
    | fail message about => exact absurd (hiff.mpr ⟨_, hsentence⟩) (by simp [Reply.isOk])
  obtain ⟨rfl, tree, -, hx, hunique⟩ := hvalue e stop x rfl
  rw [← hunique _ hsentence] at hx
  exact ⟨hline, hbudget, hlive, e, x, log, k', hdone, hx⟩

end Calculator

end Descent
