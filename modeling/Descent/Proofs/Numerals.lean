import Descent.Proofs.Radix
import Descent.Proofs.Spelling
import Descent.Proofs.Writing

/-!
# Integers and their literals

To write an integer as a literal is to write its magnitude in one of the radices that
the format has, behind the marker of the radix, and a minus before it if the integer is
negative (`Numeral.Spells`). Every integer has a literal in every radix
(`Numeral.spells_written`), and `number_reads_spelling` says what is read from one that
no letter or digit follows: the integer, up to just after the digits, in the middle of
any text.

**One word has no literal.** Sign and magnitude are read apart, and the magnitude has to
be a word of 64 bits by itself. The magnitude of the least word is one more than the
largest word, so its decimal and octal literals are rejected (`least_word_unread`).

That the radices are tried in turn does no harm. A marker tells its radix from the
others, but for the octal zero, which decimal numerals may begin with; so a decimal
numeral is written without zeros in front where the octal radix is on
(`Radix.Writes`).
-/

namespace Descent

namespace Literal

variable {format : NumberFormat} {radix : Radix} {n : Nat} {ds after : Text}

/-! ## Writing a magnitude -/

namespace Radix

/-- **The digits of a number** in a radix, perhaps with zeros in front and with capital
letters. Where a leading zero makes a number octal, a decimal one has none. -/
def Writes (format : NumberFormat) (radix : Radix) (n : Nat) (ds : Text) : Prop :=
  ∃ zeros, List.Forall₂ (fun c d => c = d ∨ c = d.toUpper) ds
      (List.replicate zeros '0' ++ Nat.toDigits radix.base n)
    ∧ (radix = .decimal → format.octal = true → zeros = 0)

theorem one_lt_base (radix : Radix) : 1 < radix.base := by
  cases radix <;> decide

theorem base_le (radix : Radix) : radix.base ≤ 16 := by
  cases radix <;> decide

/-- The digits below the base of a radix are its digits, small and capital. -/
theorem isDigit_digitChar (radix : Radix) : ∀ d : Fin 16, d < radix.base →
    radix.isDigit (Nat.digitChar d) = true ∧ radix.isDigit (Nat.digitChar d).toUpper = true := by
  cases radix <;> decide

/-- A digit of a radix is a letter or a decimal digit. -/
theorem isAlphanum_of_isDigit {c : Char} (h : radix.isDigit c = true) : c.isAlphanum = true := by
  have hdecimal (hc : c.isDigit = true) : c.isAlphanum = true := Bool.or_eq_true_iff.mpr (.inr hc)
  cases radix with
  | octal => exact hdecimal (isDigit_of_isOctalDigit h)
  | binary => obtain h | h := Bool.or_eq_true_iff.mp h <;> obtain rfl := eq_of_beq h <;> decide
  | decimal => exact hdecimal h
  | hexadecimal =>
    simp only [isDigit, isHexDigit, Bool.or_eq_true, Bool.and_eq_true, decide_eq_true_eq] at h
    obtain (h | ⟨hlow, hhigh⟩) | ⟨hlow, hhigh⟩ := h
    · exact hdecimal h
    · have hz : c ≤ 'z' := Char.le_trans hhigh (by decide)
      have hlower : c.isLower = true :=
        Bool.and_eq_true_iff.mpr ⟨decide_eq_true hlow, decide_eq_true hz⟩
      exact Bool.or_eq_true_iff.mpr (.inl (Bool.or_eq_true_iff.mpr (.inr hlower)))
    · have hz : c ≤ 'Z' := Char.le_trans hhigh (by decide)
      have hupper : c.isUpper = true := decide_eq_true ⟨hlow, hz⟩
      exact Bool.or_eq_true_iff.mpr (.inl (Bool.or_eq_true_iff.mpr (.inl hupper)))

namespace Writes

theorem isDigit_and_valueIn (h : radix.Writes format n ds) :
    (∀ c ∈ ds, radix.isDigit c = true) ∧ valueIn radix.base ds = n := by
  obtain ⟨zeros, h, -⟩ := h
  exact digits_of_numeral radix.one_lt_base radix.base_le radix.isDigit_digitChar h

theorem ne_nil (h : radix.Writes format n ds) : ds ≠ [] := by
  obtain ⟨zeros, h, -⟩ := h
  rintro rfl
  have hnil := List.forall₂_nil_left_iff.mp h
  exact Nat.toDigits_ne_nil (List.append_eq_nil_iff.mp hnil).2

/-- No digits of a magnitude begin with a minus. -/
theorem ne_minus_cons (h : radix.Writes format n ds) (after left : Text) :
    radix.marker ++ (ds ++ after) ≠ '-' :: left := by
  have hmarker : ∀ c ∈ radix.marker, c.isAlphanum = true :=
    List.all_eq_true.mp (by cases radix <;> decide)
  rw [← List.append_assoc]
  intro heq
  cases hfront : radix.marker ++ ds with
  | nil => exact h.ne_nil (List.append_eq_nil_iff.mp hfront).2
  | cons c cs =>
    rw [hfront] at heq
    obtain rfl : c = '-' := (List.cons.inj heq).1
    have hsome : '-' ∈ radix.marker ++ ds := hfront ▸ List.mem_cons_self
    obtain hmem | hmem := List.mem_append.mp hsome
    · exact absurd (hmarker '-' hmem) (by decide)
    · exact absurd (isAlphanum_of_isDigit (h.isDigit_and_valueIn.1 '-' hmem)) (by decide)

/-- **The digits are read as a whole** behind their marker. -/
theorem digits?_append (h : radix.Writes format n ds)
    (hafter : ∀ c ∈ after.head?, c.isAlphanum = false) :
    radix.digits? (radix.marker ++ (ds ++ after)) = some ds := by
  refine digits?_eq_some_iff.mpr ⟨ds ++ after, rfl, ?_, h.ne_nil⟩
  rw [List.takeWhile_append_of_pos h.isDigit_and_valueIn.1]
  cases after with
  | nil => rw [List.takeWhile_nil, List.append_nil]
  | cons c after =>
    have hc : ¬radix.isDigit c = true := fun hc =>
      absurd (isAlphanum_of_isDigit hc) (by simp [hafter c rfl])
    rw [List.takeWhile_cons_of_neg hc, List.append_nil]

/-- Decimal digits have no zero in front where it would make them octal. -/
theorem ne_zero_cons (h : decimal.Writes format n ds) (hoctal : format.octal = true) (d : Char)
    (rest : Text) : ds ≠ '0' :: d :: rest := by
  obtain ⟨zeros, h, hzeros⟩ := h
  obtain rfl := hzeros rfl hoctal
  rintro rfl
  obtain ⟨c, tail, hc, htail, heq⟩ := List.forall₂_cons_left_iff.mp h
  obtain ⟨c', tail', -, -, rfl⟩ := List.forall₂_cons_left_iff.mp htail
  rw [List.replicate_zero, List.nil_append] at heq
  obtain ⟨k, -, rfl⟩ := mem_toDigits (by decide) (by decide) (heq ▸ List.mem_cons_self)
  have hzero : digitValue '0' = k := by
    obtain hc | hc := hc
    · exact hc ▸ (digitChar_value k).1.2
    · exact hc ▸ (digitChar_value k).2.2
  obtain rfl : k = 0 := Fin.ext hzero.symm
  exact Json.toDigits_ne_zero_cons n c' tail' heq

end Writes

/-! ## Telling the radices apart -/

/-- Behind a marker no other radix has digits, decimals apart. -/
theorem digits?_of_ne_decimal {rest : Text} (h : radix.digits? rest = some ds)
    (hradix : radix ≠ .decimal) {r : Radix} (hr : r ≠ radix) (hr' : r ≠ .decimal) :
    r.digits? rest = none := by
  cases radix with
  | decimal => exact absurd rfl hradix
  | binary => exact (digits?_of_marked h (.inl rfl)).1 r hr hr'
  | hexadecimal => exact (digits?_of_marked h (.inr rfl)).1 r hr hr'
  | octal =>
    obtain ⟨hbinary, hhexadecimal, -⟩ := digits?_of_octal h
    cases r with
    | octal => exact absurd rfl hr
    | decimal => exact absurd rfl hr'
    | binary => exact hbinary
    | hexadecimal => exact hhexadecimal

/-- Before decimal digits that nothing else follows no other radix has any. -/
theorem Writes.digits?_eq_none (h : decimal.Writes format n ds)
    (hafter : ∀ c ∈ after.head?, c.isAlphanum = false) {r : Radix} (hr : r ≠ .decimal)
    (hallowed : r.isAllowed format = true) : r.digits? (ds ++ after) = none := by
  have hself : decimal.digits? (ds ++ after) = some ds := h.digits?_append hafter
  rw [Option.eq_none_iff_forall_ne_some]
  intro ds' hds'
  by_cases hmarked : r = .binary ∨ r = .hexadecimal
  · -- the decimal digits are the zero of a marker, and the letter of the marker follows them
    obtain rfl : ds = ['0'] :=
      Option.some.inj (hself.symm.trans (digits?_of_marked hds' hmarked).2)
    obtain ⟨left, heq, -⟩ := digits?_eq_some_iff.mp hds'
    obtain rfl | rfl := hmarked <;> obtain rfl : after = _ := (List.cons.inj heq).2 <;>
      exact absurd (hafter _ rfl) (by decide)
  · cases r with
    | binary => exact hmarked (.inl rfl)
    | hexadecimal => exact hmarked (.inr rfl)
    | decimal => exact hr rfl
    | octal =>
      obtain ⟨-, -, more, hall⟩ := digits?_of_octal hds'
      obtain ⟨-, -, -, hne⟩ := digits?_eq_some_iff.mp hds'
      obtain ⟨d, rest, rfl⟩ := List.exists_cons_of_ne_nil hne
      exact h.ne_zero_cons hallowed d (rest ++ more) (Option.some.inj (hself.symm.trans hall))

end Radix

/-- Digits that no other radix has are the first ones. -/
theorem firstDigits?_of_unique {radices : List Radix} {rest : Text} (hmem : radix ∈ radices)
    (hdigits : radix.digits? rest = some ds)
    (hother : ∀ r ∈ radices, r ≠ radix → r.digits? rest = none) :
    firstDigits? radices rest = some (radix, ds) := by
  rw [firstDigits?, findSome?_of_unique hmem fun r hr hne => ?_, hdigits, Option.map_some]
  rw [hother r hr hne, Option.map_none]

/-- **The radix of a magnitude is the first one that has digits.** -/
theorem Radix.Writes.firstDigits? (h : radix.Writes format n ds)
    (hallowed : radix.isAllowed format = true)
    (hafter : ∀ c ∈ after.head?, c.isAlphanum = false) :
    firstDigits? (inOrder.filter (·.isAllowed format)) (radix.marker ++ (ds ++ after))
      = some (radix, ds) := by
  have hself := h.digits?_append hafter
  by_cases hradix : radix = .decimal
  · subst hradix
    refine firstDigits?_of_unique (List.mem_filter.mpr ⟨by decide, hallowed⟩) hself
      fun r hr hne => ?_
    exact h.digits?_eq_none hafter hne (List.mem_filter.mp hr).2
  · have hbefore : Literal.firstDigits? (beforeDecimal.filter (·.isAllowed format))
        (radix.marker ++ (ds ++ after)) = some (radix, ds) := by
      refine firstDigits?_of_unique
        (List.mem_filter.mpr ⟨radix.mem_beforeDecimal hradix, hallowed⟩) hself fun r hr hne => ?_
      refine digits?_of_ne_decimal hself hradix hne ?_
      rintro rfl
      exact absurd (List.mem_filter.mp hr).1 (by decide)
    rw [filter_inOrder, Literal.firstDigits?, List.findSome?_append, ← Literal.firstDigits?,
      hbefore, Option.some_or]

/-! ## Literals of integers -/

namespace Numeral

/-- **A numeral spells an integer** if it has the digits of the magnitude and, unless the
integer is zero, its sign. -/
structure Spells (format : NumberFormat) (m : Numeral) (n : Int) : Prop where
  allowed : m.radix.isAllowed format = true
  writes : m.radix.Writes format n.natAbs m.digits
  sign : if m.negative then n ≤ 0 else 0 ≤ n

variable {m : Numeral} {n : Int}

theorem Spells.magnitude_eq (h : m.Spells format n) : m.magnitude = n.natAbs :=
  h.writes.isDigit_and_valueIn.2

theorem Spells.value_eq (h : m.Spells format n) : m.value = n := by
  have hsign := h.sign
  rw [value, h.magnitude_eq]
  split
  · next hnegative =>
    rw [if_pos hnegative] at hsign
    omega
  · next hnegative =>
    rw [if_neg hnegative] at hsign
    omega

/-- The numeral without zeros in front and without capitals. -/
def written (radix : Radix) (n : Int) : Numeral :=
  ⟨decide (n < 0), radix, Nat.toDigits radix.base n.natAbs⟩

/-- **Every integer has a literal in every radix.** -/
theorem spells_written (hallowed : radix.isAllowed format = true) (n : Int) :
    (written radix n).Spells format n where
  allowed := hallowed
  writes := ⟨0, List.forall₂_same.mpr fun _ _ => .inl rfl, fun _ _ => rfl⟩
  sign := by
    simp only [written, decide_eq_true_eq]
    split <;> omega

/-- What a numeral is read as, from its magnitude alone. -/
theorem Spells.literal? (h : m.Spells format n) (radices : List Radix) (after : Text) :
    literal? radices (m.text ++ after)
      = (firstFitting? radices (m.radix.marker ++ (m.digits ++ after))).map fun e =>
          (m.sign ++ e.1, if m.negative then -(e.2 : Int) else e.2) := by
  obtain ⟨negative, radix, ds⟩ := m
  cases negative with
  | true =>
    show Literal.literal? radices ('-' :: ((radix.marker ++ ds) ++ after)) = _
    rw [List.append_assoc]
    rfl
  | false =>
    show Literal.literal? radices ((radix.marker ++ ds) ++ after) = _
    rw [List.append_assoc, literal?_of_unsigned fun left => h.writes.ne_minus_cons after left]
    rfl

end Numeral

variable {env : Env} {position : Nat}

/-- A magnitude is too large for a word exactly if it is the one of the least word. -/
theorem maxMagnitude_lt_natAbs_iff (n : Int64) :
    maxMagnitude < n.toInt.natAbs ↔ n = Int64.minValue := by
  have hle : -2 ^ 63 ≤ n.toInt := n.le_toInt
  have hlt : n.toInt < 2 ^ 63 := n.toInt_lt
  rw [← Int64.toInt_inj, Int64.toInt_minValue, maxMagnitude]
  omega

/-- **Every word but the least is read from each of its literals**, in every radix that the
format has: what stands before and behind the literal does not matter, as long as no letter
or digit follows it. The decimal and octal literals of the least word are rejected at the
sign, since their digits alone are worth more than the largest word. -/
theorem number_reads_spelling (format : NumberFormat) (n : Int64) {m : Numeral}
    (hspells : m.Spells format n.toInt) {after : Text}
    (hafter : ∀ c ∈ after.head?, c.isAlphanum = false) (hskip : env.skip = none)
    (hrest : env.from? position = some (m.text ++ after)) (budget : Nat) (k : Knots) :
    (n ≠ Int64.minValue → ∃ log, (number format).run env position budget k
      = .done (.ok env (position + Text.size m.text) n.toInt) log k)
    ∧ (n = Int64.minValue → m.radix = .octal ∨ m.radix = .decimal →
      ∃ log, (number format).run env position budget k
        = .done (.fail numberMessage (some position)) log k) := by
  have hfirst := hspells.writes.firstDigits? hspells.allowed hafter
  obtain ⟨log, hrun⟩ := numberIn_run_bare Radix.inOrder format hskip hrest budget k
  rw [← number_eq, hspells.literal?] at hrun
  refine ⟨fun hn => ⟨log, ?_⟩, fun hn hradix => ⟨log, ?_⟩⟩
  · have hfits : m.magnitude ≤ maxMagnitude :=
      Nat.not_lt.mp fun hlarge => hn ((maxMagnitude_lt_natAbs_iff n).mp
        (hspells.magnitude_eq ▸ hlarge))
    rw [hrun, firstFitting?_of_le hfirst hfits, ← hspells.value_eq]
    rfl
  · have hlarge : maxMagnitude < m.magnitude :=
      hspells.magnitude_eq ▸ (maxMagnitude_lt_natAbs_iff n).mpr hn
    have hmarked : ¬(m.radix = .binary ∨ m.radix = .hexadecimal) := by
      obtain h | h := hradix <;> simp [h]
    rw [hrun, firstFitting?_of_lt hfirst hlarge, if_neg hmarked]
    rfl

/-- A literal with zeros and a capital letter, between parentheses. -/
theorem number_reads_spelling_parenthesized :
    let env := Env.new "(-0x00aF)".toList
    ∃ log, (number {}).run env 1 0 .initial = .done (.ok env 8 (-175)) log .initial := by
  intro env
  have hspells : Numeral.Spells {} ⟨true, .hexadecimal, "00aF".toList⟩ (Int64.ofInt (-175)).toInt :=
    ⟨rfl, ⟨2, .cons (.inl rfl) (.cons (.inl rfl) (.cons (.inl rfl) (.cons (.inr rfl) .nil))),
      by decide⟩, by decide⟩
  have hafter : ∀ c ∈ [')'].head?, c.isAlphanum = false := by
    rintro c ⟨⟩
    decide
  exact (number_reads_spelling {} (Int64.ofInt (-175)) hspells hafter rfl rfl 0 .initial).1
    (by decide)

/-- The least word has a literal that is not read. -/
theorem least_word_unread :
    let env := Env.new "-9223372036854775808".toList
    env.subject = (Numeral.written .decimal Int64.minValue.toInt).text
    ∧ (∃ log, (number {}).run env 0 0 .initial
        = .done (.fail numberMessage (some 0)) log .initial)
    ∧ ¬∃ log k, (number {}).run env 0 0 .initial
        = .done (.ok env 20 Int64.minValue.toInt) log k := by
  intro env
  have hliteral : literal? (Radix.inOrder.filter (·.isAllowed {})) env.subject = none := by decide
  have hrest : env.from? 0 = some env.subject := rfl
  obtain ⟨log, hfail⟩ := numberIn_run_bare Radix.inOrder {} rfl hrest 0 .initial
  rw [← number_eq, hliteral] at hfail
  refine ⟨by decide, ⟨log, hfail⟩, ?_⟩
  rintro ⟨log', k, hok⟩
  rw [hfail] at hok
  cases hok

end Literal

end Descent
