import Descent.Proofs.Identifiers
import Descent.Proofs.RealPattern
import Descent.Proofs.Tokens

/-!
# The longest literal

A literal of a real number takes each of its parts as long as it can be, and leaves a
point or an exponent alone that no digit follows. That this gives the longest literal of
all needs an argument, since a part that takes more leaves less to the parts behind it:
whatever literal a text begins with, no part of it reaches further than what is taken of
the text up to that part (`Decimal.exists_spelling?`).

The reader that takes a literal in this way and the pattern of literals find the same,
because both find the longest one (`Reader.FindsLongest.unique`). The same holds of
identifiers. Of a parser it means that everything is decided where skipping ends
(`Parser.TakesLongest`): whether there is a value, which text it is the value of, and that
the conversion of that text into a number is never what fails.
-/

namespace Descent

/-! ## Literals of real numbers -/

namespace Decimal

variable {x m w : Text}

/-- The length of the exponent that is taken. -/
def exponentLength (cs : Text) : Nat :=
  ((takeExponent cs).1 ++ (takeExponent cs).2.1 ++ (takeExponent cs).2.2).length

/-- The length of the fraction that is taken, and of the exponent behind it. -/
def fractionLength (cs : Text) : Nat :=
  (if (takeFraction cs).1.isEmpty then [] else '.' :: (takeFraction cs).1).length
    + exponentLength (takeFraction cs).2

/-- **No exponent is longer than what is taken** where digits, or a fraction, may still come. -/
theorem length_le_of_isExponent (hx : IsExponent x) (v : Text) :
    x.length ≤ (takeDigits (x ++ v)).1.length + exponentLength (takeDigits (x ++ v)).2
    ∧ x.length ≤ (takeDigits (x ++ v)).1.length + fractionLength (takeDigits (x ++ v)).2 := by
  cases hx with
  | none => exact ⟨Nat.zero_le _, Nat.zero_le _⟩
  | @some c s ds hc hs hds =>
    have hmark : c.isDigit = false ∧ c ≠ '.' := by
      obtain rfl | rfl := hc <;> decide
    rw [List.cons_append, List.append_assoc]
    have hdigits : takeDigits (c :: (s ++ (ds ++ v))) = ([], c :: (s ++ (ds ++ v))) :=
      takeDigits_of_head fun d hd => Option.some.inj hd ▸ hmark.1
    have hfraction : takeFraction (c :: (s ++ (ds ++ v))) = ([], c :: (s ++ (ds ++ v))) :=
      takeFraction_of_ne fun d hd => Option.some.inj hd ▸ hmark.2
    have hexponent : (c :: (s ++ ds)).length ≤ exponentLength (c :: (s ++ (ds ++ v))) := by
      rw [exponentLength, takeExponent_append hc hs hds]
      simp only [List.length_append, List.length_cons, List.length_nil]
      omega
    rw [hdigits, fractionLength, hfraction]
    simp only [List.length_nil, List.isEmpty_nil, if_true, Nat.zero_add]
    exact ⟨hexponent, hexponent⟩

/-- **No mantissa with an exponent is longer than what is taken.** -/
theorem length_le_of_isMantissa (hm : IsMantissa m) (hx : IsExponent x) (v : Text) :
    ¬((takeDigits (m ++ (x ++ v))).1.isEmpty
      && (takeFraction (takeDigits (m ++ (x ++ v))).2).1.isEmpty) = true
    ∧ m.length + x.length ≤ (takeDigits (m ++ (x ++ v))).1.length
      + fractionLength (takeDigits (m ++ (x ++ v))).2 := by
  have hpoint {fs : Text} (hfs : IsDigits fs) :
      ¬(takeFraction ('.' :: (fs ++ (x ++ v)))).1.isEmpty = true
      ∧ fs.length + 1 + x.length ≤ fractionLength ('.' :: (fs ++ (x ++ v))) := by
    obtain ⟨f, fs, rfl⟩ := List.exists_cons_of_ne_nil hfs.nonempty
    have hbehind := (length_le_of_isExponent hx v).1
    rw [fractionLength, takeFraction_append_of_isDigits hfs]
    refine ⟨Bool.false_ne_true, ?_⟩
    simp only [List.cons_append, List.isEmpty_cons, Bool.false_eq_true, if_false,
      List.length_cons, List.length_append]
    omega
  have hdot (cs : Text) : ∀ c ∈ ('.' :: cs).head?, c.isDigit = false :=
    fun c hc => Option.some.inj hc ▸ rfl
  cases hm with
  | whole hds =>
    have hbehind := (length_le_of_isExponent hx v).2
    rw [takeDigits_append_of_all hds.all]
    simp only [List.length_append]
    exact ⟨by simp [hds.nonempty], by omega⟩
  | @point ds fs hds hfs =>
    obtain ⟨hsome, hlength⟩ := hpoint hfs
    rw [List.append_assoc, List.cons_append, takeDigits_of_all hds.all (hdot _)]
    simp only [List.length_append, List.length_cons]
    exact ⟨by simp [hds.nonempty], by omega⟩
  | @fraction fs hfs =>
    obtain ⟨hsome, hlength⟩ := hpoint hfs
    rw [List.cons_append, takeDigits_of_head (hdot _)]
    simp only [List.length_cons, List.length_nil]
    exact ⟨by simpa using hsome, by omega⟩

/-- **No literal is longer than the one that is taken.** -/
theorem exists_spelling? {w : Text} (hw : IsReal w) (v : Text) :
    ∃ s, spelling? (w ++ v) = some s ∧ w.length ≤ s.text.length := by
  obtain @⟨s, m, x, hs, hm, hx⟩ := hw
  obtain ⟨hsome, hlength⟩ := length_le_of_isMantissa hm hx v
  rw [List.append_assoc, List.append_assoc]
  unfold spelling?
  simp only [takeSign_of_isSign hs (head_of_isMantissa_append hm (x ++ v)), if_neg hsome]
  refine ⟨_, rfl, ?_⟩
  rw [fractionLength, exponentLength] at hlength
  generalize takeExponent (takeFraction (takeDigits (m ++ (x ++ v))).2).2 = exponent at hlength ⊢
  obtain ⟨mark, sign, digits⟩ := exponent
  simp only [Spelling.text, List.length_append] at hlength ⊢
  omega

/-- **A literal is the longest one** that its text begins with. -/
theorem findsLongest_real : Reader.real.FindsLongest IsReal := by
  intro cs
  have htaken {w : Text} (hw : w <+: cs) (hreal : IsReal w) :
      ∃ s, spelling? cs = some s ∧ w.length ≤ s.text.length := by
    obtain ⟨v, rfl⟩ := hw
    exact exists_spelling? hreal v
  cases hspelling : spelling? cs with
  | none =>
    refine .inr ⟨by rw [Reader.real, hspelling, Option.map_none], fun w hw hreal => ?_⟩
    obtain ⟨s, hs, -⟩ := htaken hw hreal
    rw [hspelling] at hs
    cases hs
  | some s =>
    refine .inl ⟨s.text, by rw [Reader.real, hspelling, Option.map_some],
      isReal_of_spelling? hspelling, text_isPrefix_of_spelling? hspelling, fun w hreal hw => ?_⟩
    obtain ⟨s', hs', hlength⟩ := htaken hw hreal
    rw [hspelling] at hs'
    obtain rfl := Option.some.inj hs'
    exact hlength

/-! A sign, a point or a mark without digits behind it is left alone. -/

example : Reader.real ['1', 'e', '+'] = some (.here ['1']) := by decide

example : Reader.real ['+', '.', '5', '.'] = some (.here ['+', '.', '5']) := by decide

end Decimal

/-- **The texts that stand for a floating-point number**: a name of one that no digits
write, or digits with a point before, among or behind them, and an exponent. -/
inductive IsFloat : Text → Prop where
  | named {s w : Text} (sign : IsSign s)
      (name : w.map Char.toLower ∈ ["inf".toList, "infinity".toList, "nan".toList]) :
      IsFloat (s ++ w)
  | whole {s ds x : Text} (sign : IsSign s) (digits : IsDigits ds) (exponent : IsExponent x) :
      IsFloat (s ++ (ds ++ x))
  | point {s ds fs x : Text} (sign : IsSign s) (whole : ∀ c ∈ ds, c.isDigit = true)
      (fraction : ∀ c ∈ fs, c.isDigit = true) (some : ds ≠ [] ∨ fs ≠ [])
      (exponent : IsExponent x) : IsFloat (s ++ (ds ++ '.' :: fs ++ x))

/-- **Every literal stands for a number.** -/
theorem IsReal.isFloat {w : Text} (hw : IsReal w) : IsFloat w := by
  obtain ⟨hs, hm, hx⟩ := hw
  cases hm with
  | whole hds => exact .whole hs hds hx
  | point hds hfs => exact .point hs hds.all hfs.all (.inl hds.nonempty) hx
  | @fraction fs hfs =>
    exact @IsFloat.point _ [] fs _ hs nofun hfs.all (.inr hfs.nonempty) hx

/-! ## The parsers of literals -/

namespace Parser

variable {α : Type} {P : Text → Prop} {message : String}

/-- **The reply of a parser that takes the longest text of a kind**, where it was called
at a position and skipping ended at another one. -/
inductive LongestAt (P : Text → Prop) (value? : Text → Option α) (message : String) (env : Env)
    (n start : Nat) : Reply α → Prop
  /-- The text is taken, and yields what it stands for. -/
  | found {rest w : Text} {a : α} (left : env.from? start = some rest)
      (longest : IsLongest P w rest) (value : value? w = some a) :
      LongestAt P value? message env n start (.ok env (start + Text.size w) a)
  /-- No text of the kind begins there, and the failure is about the call. -/
  | missing (none : ∀ rest w, env.from? start = some rest → w <+: rest → ¬P w) :
      LongestAt P value? message env n start (.fail message (some n))

/-- **A parser takes the longest text of a kind**: it skips, and its reply is then told by
the text that is left. -/
def TakesLongest (p : Parser α) (P : Text → Prop) (value? : Text → Option α)
    (message : String) : Prop :=
  ∀ env n, ∃ next : Nat → Eval (Reply α), p.run env n = (env.skipFrom n >>= next)
    ∧ ∀ start, ∃ reply, next start = pure reply ∧ LongestAt P value? message env n start reply

/-- A token takes what its reader finds. -/
theorem takesLongest_token {read : Reader} (h : read.FindsLongest P) :
    (token read message).TakesLongest P (fun w => some (String.ofList w)) message := by
  refine fun env n => ⟨_, rfl, fun start => ?_⟩
  cases hrest : env.from? start with
  | none =>
    refine ⟨_, rfl, .missing fun rest w h => ?_⟩
    rw [hrest] at h
    cases h
  | some rest =>
    rw [Option.bind_some]
    obtain ⟨w, hread, hw⟩ | ⟨hread, hnone⟩ := h rest
    · rw [hread]
      refine ⟨_, rfl, ?_⟩
      rw [Match.size_here]
      exact .found hrest hw rfl
    · rw [hread]
      refine ⟨_, rfl, .missing fun rest' w h => ?_⟩
      obtain rfl := Option.some.inj (hrest.symm.trans h)
      exact hnone w

/-- Where each text of the kind is then turned into what it stands for, nothing is lost. -/
theorem TakesLongest.bind {p : Parser String} {value? : Text → Option α} {g : String → Parser α}
    (h : p.TakesLongest P (fun w => some (String.ofList w)) message)
    (hg : ∀ w, P w → ∃ a, value? w = some a ∧ g (String.ofList w) = succeed a) :
    (p.bind g).TakesLongest P value? message := by
  intro env n
  obtain ⟨next, hrun, hnext⟩ := h env n
  refine ⟨fun start => next start >>= goOn g, ?_, fun start => ?_⟩
  · show (p.run env n >>= goOn g) = _
    rw [hrun, Eval.bind_assoc]
  · obtain ⟨reply, hstart, hreply⟩ := hnext start
    simp only [hstart, Eval.pure_bind]
    cases hreply with
    | @found rest w _ hrest hw htext =>
      obtain ⟨a, ha, hsucceed⟩ := hg w hw.kind
      obtain rfl := Option.some.inj htext
      refine ⟨_, ?_, .found hrest hw ha⟩
      rw [goOn, hsucceed, run_succeed]
    | missing hnone => exact ⟨_, rfl, .missing hnone⟩

/-- **Literals are the longest texts of their kinds**, and the patterns of the two kinds
find the same as the readers. Every literal of a real number stands for a number, so its
conversion does not fail. -/
theorem literals_take_longest (message : String) :
    (realWith message).TakesLongest IsReal Decimal.value? message
    ∧ (∀ w, IsReal w → IsFloat w)
    ∧ (Literal.javaIdentifier message).TakesLongest Literal.IsIdentifier
        (fun w => some (String.ofList w)) message
    ∧ (Regex.compileAnchored Regex.realPattern).map Regex.Program.find? = .ok Reader.real
    ∧ (Regex.compileAnchored Regex.identifierPattern).map Regex.Program.find?
        = .ok Literal.identifierReader := by
  refine ⟨?_, fun _ => IsReal.isFloat, takesLongest_token Literal.findsLongest_identifier, ?_, ?_⟩
  · refine (takesLongest_token Decimal.findsLongest_real).bind fun w hw => ?_
    obtain ⟨x, hx⟩ := Decimal.value?_isSome hw
    refine ⟨x, hx, ?_⟩
    rw [String.toList_ofList, hx]
  · rw [Regex.compileAnchored_real]
    exact congrArg Except.ok (Regex.Program.findsLongest_real.unique Decimal.findsLongest_real)
  · rw [Regex.compileAnchored_identifier]
    exact congrArg Except.ok Regex.find?_identifier

end Parser

end Descent
