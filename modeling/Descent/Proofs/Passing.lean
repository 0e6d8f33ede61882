import Descent.Proofs.Writing

/-!
# Well-formed values are passed over

An object may hold members that nobody asked for, with any values that the notation
has: literals, numbers, texts in quotes, lists and objects, nested as deep as one likes
and with blanks between all parts (`WellFormed`). Passing over such a value takes all of
it and nothing else (`WellFormed.skipValue`).

**The grammar is the notation's own.** It does not follow the reader: blanks, digits and
escapes are spelled out, and lists and objects are one form, elements between brackets
and with commas between them (`Bracketed`), at two kinds of elements.

**How deep a value nests** is bounded by its length, and so is what is left to pass at
any time. The reader counts down once for each level and once for each element, which is
not more than the characters that these take.

**Escapes of values are not read.** What is passed over may contain escapes that mean no
character, such as one half of a pair; a name that is read may not.
-/

namespace Descent

namespace Json

/-! ## The notation -/

/-- Blanks between the parts of a value. -/
def Blanks (b : Text) : Prop := ∀ c ∈ b, c ∈ [' ', '\n', '\t', '\r']

/-- A hexadecimal digit, small or capital, and its value. -/
def HexDigit (n : Nat) (c : Char) : Prop :=
  "0123456789abcdef".toList[n]? = some c ∨ "0123456789ABCDEF".toList[n]? = some c

/-- Four hexadecimal digits and their number. -/
inductive Hex4 : Nat → Text → Prop where
  | digits {i j k l : Nat} {a b c d : Char} (ha : HexDigit i a) (hb : HexDigit j b)
      (hc : HexDigit k c) (hd : HexDigit l d) :
      Hex4 (((i * 16 + j) * 16 + k) * 16 + l) [a, b, c, d]

/-- A character between quotes that stands for itself. -/
def Graphic (c : Char) : Prop := 32 ≤ c.toNat ∧ c ≠ '"' ∧ c ≠ '\\'

/-- **What may stand between quotes**: characters for themselves, and escapes. -/
inductive Quotable : Text → Prop where
  | nil : Quotable []
  | itself {c : Char} {rest : Text} (hc : Graphic c) (hrest : Quotable rest) :
      Quotable (c :: rest)
  | letter {c : Char} {rest : Text} (hc : c ∈ ['"', '\\', '/', 'b', 'f', 'n', 'r', 't'])
      (hrest : Quotable rest) : Quotable ('\\' :: c :: rest)
  | number {n : Nat} {digits rest : Text} (hn : Hex4 n digits) (hrest : Quotable rest) :
      Quotable ('\\' :: 'u' :: (digits ++ rest))

/-- Digits, at least one. -/
def Digits (t : Text) : Prop := t ≠ [] ∧ ∀ c ∈ t, c.isDigit = true

/-- **A number**: a sign, a whole part without zeros in front, a fraction and an exponent. -/
inductive Number : Text → Prop where
  | parts {sign whole fraction exponent : Text} (hsign : sign = [] ∨ sign = ['-'])
      (hwhole : Digits whole) (hzero : ∀ d ds, whole ≠ '0' :: d :: ds)
      (hfraction : fraction = [] ∨ ∃ ds, Digits ds ∧ fraction = '.' :: ds)
      (hexponent : exponent = [] ∨ ∃ e s ds, (e = 'e' ∨ e = 'E') ∧ (s = [] ∨ s = ['+'] ∨ s = ['-'])
        ∧ Digits ds ∧ exponent = e :: (s ++ ds)) :
      Number (sign ++ (whole ++ (fraction ++ exponent)))

section Bracketed

variable {β : Type} (Stands : β → Text → Prop)

/-- **Elements up to a closing bracket**, with commas between them. -/
inductive Enumerated (close : Char) : List β → Text → Prop where
  | last {x : β} {t b : Text} (hx : Stands x t) (hb : Blanks b) :
      Enumerated close [x] (t ++ (b ++ [close]))
  | more {x : β} {xs : List β} {t b b' rest : Text} (hx : Stands x t) (hb : Blanks b)
      (hb' : Blanks b') (hrest : Enumerated close xs rest) :
      Enumerated close (x :: xs) (t ++ (b ++ ',' :: (b' ++ rest)))

/-- **Elements between brackets**, as many as one likes. -/
inductive Bracketed (opening close : Char) : List β → Text → Prop where
  | empty {b : Text} (hb : Blanks b) : Bracketed opening close [] (opening :: (b ++ [close]))
  | elements {xs : List β} {b t : Text} (hb : Blanks b) (ht : Enumerated Stands close xs t) :
      Bracketed opening close xs (opening :: (b ++ t))

end Bracketed

/-- A member of an object: what stands between the quotes of its name, and its value. -/
structure Member where
  name : Text
  value : Text

/-- The text of a member. -/
inductive Member.Stands : Member → Text → Prop where
  | parts {m : Member} {b b' : Text} (hb : Blanks b) (hb' : Blanks b') :
      m.Stands ('"' :: (m.name ++ '"' :: (b ++ ':' :: (b' ++ m.value))))

/-- **An object**, with its members in order. -/
def Object (ms : List Member) (t : Text) : Prop := Bracketed Member.Stands '\x7b' '\x7d' ms t

/-- **The text of an object**, with its members in order and blanks around it. -/
inductive Document (ms : List Member) : Text → Prop where
  | mk {before t after : Text} (hbefore : Blanks before) (ht : Object ms t)
      (hafter : Blanks after) : Document ms (before ++ (t ++ after))

/-- **A well-formed value.** -/
inductive WellFormed : Text → Prop where
  | literal {t : String} (ht : t ∈ ["true", "false", "null"]) : WellFormed t.toList
  | number {t : Text} (ht : Number t) : WellFormed t
  | text {t : Text} (ht : Quotable t) : WellFormed ('"' :: (t ++ ['"']))
  | list {values : List Text} {t : Text} (ht : Bracketed Eq '[' ']' values t)
      (hvalues : ∀ v ∈ values, WellFormed v) : WellFormed t
  | object {ms : List Member} {t : Text} (ht : Object ms t)
      (hnames : ∀ m ∈ ms, Quotable m.name) (hvalues : ∀ m ∈ ms, WellFormed m.value) :
      WellFormed t

/-! ## Blanks and escapes -/

theorem dropBlanks_append {b : Text} (hb : Blanks b) (s : Source) :
    dropBlanks (Source.ofText b ++ s) = dropBlanks s := by
  induction b with
  | nil => rfl
  | cons c b ih =>
    have hblank : isBlank c = true := by
      have hc := hb c List.mem_cons_self
      simpa [isBlank, or_assoc] using hc
    show dropBlanks (some c :: (Source.ofText b ++ s)) = _
    rw [dropBlanks, if_pos hblank, ih fun d hd => hb d (List.mem_cons_of_mem c hd)]

theorem hexValue?_of_hexDigit {n : Nat} {c : Char} (h : HexDigit n c) :
    hexValue? c = some n := by
  have hsmall : ∀ i : Fin 16, hexValue? ("0123456789abcdef".toList[i]) = some i.val := by decide
  have hcapital : ∀ i : Fin 16, hexValue? ("0123456789ABCDEF".toList[i]) = some i.val := by decide
  obtain h | h := h
  · obtain ⟨hn, rfl⟩ := List.getElem?_eq_some_iff.mp h
    exact hsmall ⟨n, hn⟩
  · obtain ⟨hn, rfl⟩ := List.getElem?_eq_some_iff.mp h
    exact hcapital ⟨n, hn⟩

/-- The digits of a number are four, and the number is read off them. -/
theorem Hex4.exists_digits {n : Nat} {digits : Text} (h : Hex4 n digits) :
    ∃ a b c d, digits = [a, b, c, d] ∧ hex4? a b c d = some n := by
  obtain ⟨ha, hb, hc, hd⟩ := h
  refine ⟨_, _, _, _, rfl, ?_⟩
  simp only [hex4?, hexValue?_of_hexDigit ha, hexValue?_of_hexDigit hb, hexValue?_of_hexDigit hc,
    hexValue?_of_hexDigit hd, Option.bind_eq_bind, Option.bind_some, Option.pure_def,
    Option.some.injEq]
  omega

theorem unescape?_of_mem {c : Char} (h : c ∈ ['"', '\\', '/', 'b', 'f', 'n', 'r', 't']) :
    ∃ d, unescape? c = some d := by
  simp only [List.mem_cons, List.not_mem_nil, or_false] at h
  obtain rfl | rfl | rfl | rfl | rfl | rfl | rfl | rfl := h <;> exact ⟨_, rfl⟩

/-- **What stands between quotes is passed over**, up to the closing quote. -/
theorem Quotable.skipQuoted {t : Text} (h : Quotable t) (s : Source) :
    skipQuoted (Source.ofText t ++ some '"' :: s) = some s := by
  induction h with
  | nil =>
    show Json.skipQuoted (some '"' :: s) = _
    rw [Json.skipQuoted]
  | @itself c rest hc hrest ih =>
    obtain ⟨hgraphic, hquote, hbackslash⟩ := hc
    show Json.skipQuoted (some c :: (Source.ofText rest ++ some '"' :: s)) = _
    rw [Json.skipQuoted, if_neg (Nat.not_lt.mpr hgraphic), ih]
    all_goals simp [hquote, hbackslash]
  | @letter c rest hc hrest ih =>
    obtain ⟨d, hd⟩ := unescape?_of_mem hc
    have hne : c ≠ 'u' := by
      rintro rfl
      exact absurd hc (by decide)
    show Json.skipQuoted (some '\\' :: some c :: (Source.ofText rest ++ some '"' :: s)) = _
    rw [Json.skipQuoted, if_pos (by rw [hd]; rfl), ih]
    simp [hne]
  | @number n digits rest hn hrest ih =>
    obtain ⟨a, b, c, d, rfl, hex⟩ := hn.exists_digits
    show Json.skipQuoted (some '\\' :: some 'u' :: some a :: some b :: some c :: some d
      :: (Source.ofText rest ++ some '"' :: s)) = _
    rw [Json.skipQuoted, if_pos (by rw [hex]; rfl), ih]

/-! ## Numbers -/

section Numbers

variable {t : Text} {s : Source}

theorem Digits.exists_cons (h : Digits t) : ∃ c cs, t = c :: cs ∧ c.isDigit = true := by
  obtain ⟨hne, hdigits⟩ := h
  obtain ⟨c, cs, rfl⟩ := List.exists_cons_of_ne_nil hne
  exact ⟨c, cs, rfl, hdigits c List.mem_cons_self⟩

theorem Digits.skipDigits (h : Digits t) (hs : s.EndsDigits) :
    skipDigits (Source.ofText t ++ s) = some s := by
  rw [Json.skipDigits, takeDigits_append h.2 hs]
  split
  · next heq => exact absurd (Prod.mk.inj heq).1 h.1
  · next heq => exact congrArg some (Prod.mk.inj heq).2.symm

/-- What begins with some character that is no digit goes on with no digits. -/
theorem endsDigits_cons {c : Char} (h : c.isDigit = false) (s : Source) :
    Source.EndsDigits (some c :: s) := by
  intro d hd
  obtain rfl := Option.some.inj (Option.some.inj hd)
  exact h

/-- **An exponent is passed over**, also one that is not there, and no digits or fraction
before it go on with it. -/
theorem skipExponent_append {exponent : Text}
    (h : exponent = [] ∨ ∃ e s ds, (e = 'e' ∨ e = 'E') ∧ (s = [] ∨ s = ['+'] ∨ s = ['-'])
      ∧ Digits ds ∧ exponent = e :: (s ++ ds)) (hs : s.EndsNumber) :
    skipExponent (Source.ofText exponent ++ s) = some s
      ∧ (Source.ofText exponent ++ s).EndsDigits
      ∧ ∀ s', Source.ofText exponent ++ s ≠ some '.' :: s' := by
  obtain rfl | ⟨e, sign, ds, he, hsign, hds, rfl⟩ := h
  · refine ⟨?_, hs.endsDigits, ?_⟩
    · show skipExponent s = some s
      rcases s with _ | ⟨_ | c, s⟩
      · rfl
      · rfl
      · obtain ⟨-, -, he, hE⟩ := hs c rfl
        rw [skipExponent.eq_def]
        exact if_neg (by simp [he, hE])
    · rintro s' rfl
      exact (hs '.' rfl).2.1 rfl
  · have hdigits := hds.skipDigits hs.endsDigits
    obtain ⟨c, cs, rfl, hc⟩ := hds.exists_cons
    refine ⟨?_, endsDigits_cons (by obtain rfl | rfl := he <;> rfl) _, ?_⟩
    · show skipExponent (some e :: (Source.ofText (sign ++ c :: cs) ++ s)) = some s
      rw [skipExponent.eq_def]
      refine (if_pos he).trans ?_
      obtain rfl | rfl | rfl := hsign
      · -- digits do not begin with a sign
        split
        · next heq =>
          obtain rfl := Option.some.inj (List.cons.inj heq).1
          exact absurd hc (by decide)
        · next heq =>
          obtain rfl := Option.some.inj (List.cons.inj heq).1
          exact absurd hc (by decide)
        · exact hdigits
      · exact hdigits
      · exact hdigits
    · intro s' heq
      obtain rfl := Option.some.inj (List.cons.inj heq).1
      exact absurd he (by decide)

/-- **A fraction is passed over**, also one that is not there. -/
theorem skipFraction_append {fraction : Text}
    (h : fraction = [] ∨ ∃ ds, Digits ds ∧ fraction = '.' :: ds) (hs : s.EndsDigits)
    (hpoint : ∀ s', s ≠ some '.' :: s') :
    skipFraction (Source.ofText fraction ++ s) = some s
      ∧ (Source.ofText fraction ++ s).EndsDigits := by
  obtain rfl | ⟨ds, hds, rfl⟩ := h
  · refine ⟨?_, hs⟩
    show skipFraction s = some s
    unfold skipFraction
    split
    · exact absurd rfl (hpoint _)
    · rfl
  · exact ⟨hds.skipDigits hs, endsDigits_cons rfl _⟩

/-- **A number is passed over** where nothing goes on with it. -/
theorem Number.skipNumber (h : Number t) (hs : s.EndsNumber) :
    skipNumber (Source.ofText t ++ s) = some s := by
  obtain ⟨hsign, hwhole, hzero, hfraction, hexponent⟩ := h
  rename_i sign whole fraction exponent
  obtain ⟨hskip, hends, hpoint⟩ := skipExponent_append hexponent hs
  obtain ⟨hskip', hends'⟩ := skipFraction_append hfraction hends hpoint
  have htake := takeWhole?_append hwhole.1 hwhole.2 hzero hends'
  have hunsigned : ((takeWhole? (Source.ofText whole
      ++ (Source.ofText fraction ++ (Source.ofText exponent ++ s)))).bind fun read =>
        (skipFraction read.2).bind skipExponent) = some s := by
    simp only [htake, hskip', hskip, Option.bind_some]
  have htext : Source.ofText (sign ++ (whole ++ (fraction ++ exponent))) ++ s
      = Source.ofText sign ++ (Source.ofText whole
        ++ (Source.ofText fraction ++ (Source.ofText exponent ++ s))) := by
    simp only [ofText_append, List.append_assoc]
  rw [htext]
  obtain rfl | rfl := hsign
  · obtain ⟨c, cs, rfl, hc⟩ := hwhole.exists_cons
    refine Eq.trans ?_ hunsigned
    rw [Json.skipNumber.eq_def]
    simp only []
    split
    · next heq =>
      obtain rfl := Option.some.inj (List.cons.inj heq).1
      exact absurd hc (by decide)
    · rfl
  · exact hunsigned

/-- A number begins with a digit or a sign. -/
theorem Number.exists_cons (h : Number t) :
    ∃ c cs, t = c :: cs ∧ (c = '-' ∨ c.isDigit = true) := by
  obtain ⟨rfl | rfl, hwhole, -, -, -⟩ := h
  · obtain ⟨c, cs, rfl, hc⟩ := hwhole.exists_cons
    exact ⟨c, _, rfl, .inr hc⟩
  · exact ⟨'-', _, rfl, .inl rfl⟩

end Numbers

/-! ## Values -/

/-- Neither blanks nor what ends or separates elements goes on with a number. -/
theorem endsNumber_append {b : Text} (hb : Blanks b) {c : Char} (hc : c ∈ [',', ']', '\x7d'])
    (s : Source) : (Source.ofText b ++ some c :: s).EndsNumber := by
  have hall : ∀ d ∈ [' ', '\n', '\t', '\r'] ++ [',', ']', '\x7d'],
      d.isDigit = false ∧ d ≠ '.' ∧ d ≠ 'e' ∧ d ≠ 'E' := by simp [Char.isDigit]
  intro d hd
  cases b with
  | nil =>
    obtain rfl := Option.some.inj (Option.some.inj hd)
    exact hall _ (List.mem_append_right _ hc)
  | cons e b =>
    obtain rfl := Option.some.inj (Option.some.inj hd)
    exact hall _ (List.mem_append_left _ (hb _ List.mem_cons_self))

/-- What ends or separates elements is found behind blanks. -/
theorem dropBlanks_append_cons {b : Text} (hb : Blanks b) {c : Char} (hc : isBlank c = false)
    (s : Source) : dropBlanks (Source.ofText b ++ some c :: s) = some c :: s := by
  rw [dropBlanks_append hb, dropBlanks_cons hc]

/-- Blanks in front of a value are passed over with it. -/
theorem skipValueWithin_blanks {b : Text} (hb : Blanks b) (depth : Nat) (s : Source) :
    skipValueWithin depth (Source.ofText b ++ s) = skipValueWithin depth s := by
  cases depth with
  | zero => rw [skipValueWithin, skipValueWithin]
  | succ depth => rw [skipValueWithin, skipValueWithin, dropBlanks_append hb]

theorem skipItemsWithin_blanks {b : Text} (hb : Blanks b) (depth : Nat) (s : Source) :
    skipItemsWithin depth (Source.ofText b ++ s) = skipItemsWithin depth s := by
  cases depth with
  | zero => rw [skipItemsWithin, skipItemsWithin]
  | succ depth => rw [skipItemsWithin, skipItemsWithin, skipValueWithin_blanks hb]

theorem skipMembersWithin_blanks {b : Text} (hb : Blanks b) (depth : Nat) (s : Source) :
    skipMembersWithin depth (Source.ofText b ++ s) = skipMembersWithin depth s := by
  cases depth with
  | zero => rw [skipMembersWithin, skipMembersWithin]
  | succ depth => rw [skipMembersWithin, skipMembersWithin, dropBlanks_append hb]

/-- **The value is passed over** wherever no number goes on, by any reader that may go as
deep as the value is long. -/
def Passes (v : Text) : Prop :=
  ∀ ⦃depth s⦄, v.length ≤ depth → s.EndsNumber →
    skipValueWithin depth (Source.ofText v ++ s) = some s

/-- A last element and its closing bracket, as a source. -/
theorem ofText_last (t b : Text) (close : Char) (s : Source) :
    Source.ofText (t ++ (b ++ [close])) ++ s
      = Source.ofText t ++ (Source.ofText b ++ some close :: s) := by
  simp only [Source.ofText, List.map_append, List.map_cons, List.map_nil, List.append_assoc,
    List.cons_append, List.nil_append]

/-- An element and what follows its comma, as a source. -/
theorem ofText_more (t b b' rest : Text) (s : Source) :
    Source.ofText (t ++ (b ++ ',' :: (b' ++ rest))) ++ s
      = Source.ofText t ++ (Source.ofText b
        ++ some ',' :: (Source.ofText b' ++ (Source.ofText rest ++ s))) := by
  simp only [Source.ofText, List.map_append, List.map_cons, List.append_assoc, List.cons_append]

section Elements

variable {depth : Nat} {s : Source}

/-- An item is passed over, and the list ends or goes on behind it. -/
theorem skipItemsWithin_item {v b : Text} (hv : Passes v) (hdepth : v.length ≤ depth)
    (hb : Blanks b) :
    skipItemsWithin (depth + 1) (Source.ofText v ++ (Source.ofText b ++ some ']' :: s)) = some s
    ∧ skipItemsWithin (depth + 1) (Source.ofText v ++ (Source.ofText b ++ some ',' :: s))
      = skipItemsWithin depth s := by
  constructor
  · rw [skipItemsWithin, hv hdepth (endsNumber_append hb (by simp) s), Option.bind_eq_bind,
      Option.bind_some, dropBlanks_append_cons hb rfl]
    rfl
  · rw [skipItemsWithin, hv hdepth (endsNumber_append hb (by simp) s), Option.bind_eq_bind,
      Option.bind_some, dropBlanks_append_cons hb rfl]
    rfl

/-- A member as a source: its name in quotes, and its value behind a colon. -/
theorem Member.Stands.ofText_append {m : Member} {t : Text} (h : m.Stands t) :
    ∃ b b', Blanks b ∧ Blanks b' ∧ m.value.length ≤ t.length ∧ ∀ s, Source.ofText t ++ s
      = some '"' :: (Source.ofText m.name ++ some '"' :: (Source.ofText b
        ++ some ':' :: (Source.ofText b' ++ (Source.ofText m.value ++ s)))) := by
  obtain ⟨hb, hb'⟩ := h
  refine ⟨_, _, hb, hb', ?_, fun s => ?_⟩
  · simp only [List.length_cons, List.length_append]
    omega
  · simp only [Source.ofText, List.map_append, List.map_cons, List.append_assoc, List.cons_append]

/-- A member is passed over, and the object ends or goes on behind it. -/
theorem skipMembersWithin_member {m : Member} {t b : Text} (ht : m.Stands t)
    (hname : Quotable m.name) (hvalue : Passes m.value) (hdepth : t.length ≤ depth)
    (hb : Blanks b) :
    skipMembersWithin (depth + 1) (Source.ofText t ++ (Source.ofText b ++ some '\x7d' :: s))
      = some s
    ∧ skipMembersWithin (depth + 1) (Source.ofText t ++ (Source.ofText b ++ some ',' :: s))
      = skipMembersWithin depth s := by
  obtain ⟨b₁, b₂, hb₁, hb₂, hlength, htext⟩ := ht.ofText_append
  have hpassed (c : Char) (hc : c ∈ [',', ']', '\x7d']) :
      skipValueWithin depth (Source.ofText b₂
          ++ (Source.ofText m.value ++ (Source.ofText b ++ some c :: s)))
        = some (Source.ofText b ++ some c :: s) :=
    (skipValueWithin_blanks hb₂ depth _).trans
      (hvalue (Nat.le_trans hlength hdepth) (endsNumber_append hb hc s))
  constructor
  · rw [htext, skipMembersWithin, dropBlanks_cons rfl]
    simp only [hname.skipQuoted, dropBlanks_append_cons hb₁ (c := ':') rfl,
      hpassed '\x7d' (by simp), dropBlanks_append_cons hb (c := '\x7d') rfl,
      Option.bind_eq_bind, Option.bind_some]
  · rw [htext, skipMembersWithin, dropBlanks_cons rfl]
    simp only [hname.skipQuoted, dropBlanks_append_cons hb₁ (c := ':') rfl,
      hpassed ',' (by simp), dropBlanks_append_cons hb (c := ',') rfl,
      Option.bind_eq_bind, Option.bind_some]

/-- **The items of a list are passed over**, up to its end. -/
theorem skipItemsWithin_enumerated {values : List Text} {t : Text}
    (ht : Enumerated Eq ']' values t) (hvalues : ∀ v ∈ values, Passes v)
    (hdepth : t.length ≤ depth) : skipItemsWithin depth (Source.ofText t ++ s) = some s := by
  induction ht generalizing depth with
  | @last v t b hx hb =>
    subst hx
    simp only [List.length_append, List.length_singleton] at hdepth
    obtain ⟨depth, rfl⟩ : ∃ d, depth = d + 1 := ⟨depth - 1, by omega⟩
    rw [ofText_last]
    exact (skipItemsWithin_item (hvalues v List.mem_cons_self) (by omega) hb).1
  | @more v values t b b' rest hx hb hb' hrest ih =>
    subst hx
    simp only [List.length_append, List.length_cons] at hdepth
    obtain ⟨depth, rfl⟩ : ∃ d, depth = d + 1 := ⟨depth - 1, by omega⟩
    rw [ofText_more, (skipItemsWithin_item (hvalues v List.mem_cons_self) (by omega) hb).2,
      skipItemsWithin_blanks hb']
    exact ih (fun w hw => hvalues w (List.mem_cons_of_mem v hw)) (by omega)

/-- **The members of an object are passed over**, up to its end. -/
theorem skipMembersWithin_enumerated {ms : List Member} {t : Text}
    (ht : Enumerated Member.Stands '\x7d' ms t) (hnames : ∀ m ∈ ms, Quotable m.name)
    (hvalues : ∀ m ∈ ms, Passes m.value) (hdepth : t.length ≤ depth) :
    skipMembersWithin depth (Source.ofText t ++ s) = some s := by
  induction ht generalizing depth with
  | @last m t b hm hb =>
    simp only [List.length_append, List.length_singleton] at hdepth
    obtain ⟨depth, rfl⟩ : ∃ d, depth = d + 1 := ⟨depth - 1, by omega⟩
    rw [ofText_last]
    exact (skipMembersWithin_member hm (hnames m List.mem_cons_self)
      (hvalues m List.mem_cons_self) (by omega) hb).1
  | @more m ms t b b' rest hm hb hb' hrest ih =>
    simp only [List.length_append, List.length_cons] at hdepth
    obtain ⟨depth, rfl⟩ : ∃ d, depth = d + 1 := ⟨depth - 1, by omega⟩
    rw [ofText_more, (skipMembersWithin_member hm (hnames m List.mem_cons_self)
      (hvalues m List.mem_cons_self) (by omega) hb).2, skipMembersWithin_blanks hb']
    exact ih (fun m' hm' => hnames m' (List.mem_cons_of_mem m hm'))
      (fun m' hm' => hvalues m' (List.mem_cons_of_mem m hm')) (by omega)

end Elements

/-- **A value begins** with a character that is no blank and closes no list. -/
theorem WellFormed.exists_cons {v : Text} (h : WellFormed v) :
    ∃ c cs, v = c :: cs ∧ isBlank c = false ∧ c ≠ ']' := by
  cases h with
  | literal ht =>
    simp only [List.mem_cons, List.not_mem_nil, or_false] at ht
    obtain rfl | rfl | rfl := ht <;> exact ⟨_, _, rfl, rfl, by decide⟩
  | number ht =>
    obtain ⟨c, cs, rfl, rfl | hc⟩ := ht.exists_cons
    · exact ⟨_, _, rfl, rfl, by decide⟩
    · refine ⟨_, _, rfl, isBlank_of_isDigit hc, ?_⟩
      rintro rfl
      exact absurd hc (by decide)
  | text => exact ⟨_, _, rfl, rfl, by decide⟩
  | list ht => cases ht <;> exact ⟨_, _, rfl, rfl, by decide⟩
  | object ht => cases ht <;> exact ⟨_, _, rfl, rfl, by decide⟩

/-- The text of items begins as the first of them. -/
theorem Enumerated.exists_item {values : List Text} {t : Text}
    (h : Enumerated Eq ']' values t) : ∃ v ∈ values, ∃ rest, t = v ++ rest := by
  cases h with
  | last hx => exact ⟨_, List.mem_cons_self, _, by rw [hx]⟩
  | more hx => exact ⟨_, List.mem_cons_self, _, by rw [hx]⟩

/-- The text of members begins with a quote. -/
theorem Enumerated.exists_quote {ms : List Member} {close : Char} {t : Text}
    (h : Enumerated Member.Stands close ms t) : ∃ rest, t = '"' :: rest := by
  cases h with
  | last hm => cases hm; exact ⟨_, rfl⟩
  | more hm => cases hm; exact ⟨_, rfl⟩

/-- A number begins as no other value does. -/
theorem begins_number {c : Char} (hc : c = '-' ∨ c.isDigit = true) :
    isBlank c = false ∧ c ∉ ['"', '[', '\x7b', 't', 'f', 'n'] := by
  have hall : ∀ d ∈ ['"', '[', '\x7b', 't', 'f', 'n'], d.isDigit = false := by simp [Char.isDigit]
  obtain rfl | hc := hc
  · decide
  · exact ⟨isBlank_of_isDigit hc, fun h => Bool.false_ne_true ((hall c h).symm.trans hc)⟩

/-- A number is told from all other values by its first character. -/
theorem skipValueWithin_number {c : Char} (hc : c = '-' ∨ c.isDigit = true) (depth : Nat)
    (s : Source) : skipValueWithin (depth + 1) (some c :: s) = skipNumber (some c :: s) := by
  obtain ⟨hblank, hother⟩ := begins_number hc
  rw [skipValueWithin, dropBlanks_cons hblank]
  split
  case h_7 => rfl
  all_goals
    next heq =>
      obtain rfl := Option.some.inj (List.cons.inj heq).1
      exact absurd (by decide) hother

/-- Some level of the bound is left for the value itself. -/
theorem Passes.of_succ {v : Text} (hne : v ≠ [])
    (h : ∀ depth s, v.length ≤ depth + 1 → s.EndsNumber →
      skipValueWithin (depth + 1) (Source.ofText v ++ s) = some s) : Passes v := by
  intro depth s hdepth hs
  cases depth with
  | zero => exact absurd (List.length_eq_zero_iff.mp (Nat.le_zero.mp hdepth)) hne
  | succ depth => exact h depth s hdepth hs

/-- **A list is passed over** if its items are. They do not begin as its end does. -/
theorem skipValueWithin_list {values : List Text} {t : Text} (ht : Bracketed Eq '[' ']' values t)
    (hfirst : ∀ v ∈ values, ∃ c cs, v = c :: cs ∧ isBlank c = false ∧ c ≠ ']')
    (hvalues : ∀ v ∈ values, Passes v) {depth : Nat} (hdepth : t.length ≤ depth + 1)
    (s : Source) : skipValueWithin (depth + 1) (Source.ofText t ++ s) = some s := by
  cases ht with
  | @empty b hb =>
    have hdrop : dropBlanks (Source.ofText (b ++ [']']) ++ s) = some ']' :: s := by
      rw [ofText_append, List.append_assoc]
      exact dropBlanks_append_cons hb rfl s
    show skipValueWithin (depth + 1) (some '[' :: (Source.ofText (b ++ [']']) ++ s)) = _
    rw [skipValueWithin, dropBlanks_cons rfl]
    simp only [hdrop]
  | @elements _ b t hb ht =>
    have hitems : skipItemsWithin depth (Source.ofText t ++ s) = some s := by
      refine skipItemsWithin_enumerated ht hvalues ?_
      simp only [List.length_cons, List.length_append] at hdepth
      omega
    obtain ⟨v, hv, rest, rfl⟩ := ht.exists_item
    obtain ⟨c, cs, rfl, hblank, hc⟩ := hfirst v hv
    have hdrop : dropBlanks (Source.ofText (b ++ (c :: cs ++ rest)) ++ s)
        = Source.ofText (c :: cs ++ rest) ++ s := by
      rw [ofText_append, List.append_assoc, dropBlanks_append hb]
      exact dropBlanks_cons hblank _
    show skipValueWithin (depth + 1)
      (some '[' :: (Source.ofText (b ++ (c :: cs ++ rest)) ++ s)) = _
    rw [skipValueWithin, dropBlanks_cons rfl]
    simp only [hdrop]
    split
    · next heq => exact absurd (Option.some.inj (List.cons.inj heq).1) hc
    · exact hitems

/-- **An object is passed over** if its names and values are. -/
theorem skipValueWithin_object {ms : List Member} {t : Text} (ht : Object ms t)
    (hnames : ∀ m ∈ ms, Quotable m.name) (hvalues : ∀ m ∈ ms, Passes m.value) {depth : Nat}
    (hdepth : t.length ≤ depth + 1) (s : Source) :
    skipValueWithin (depth + 1) (Source.ofText t ++ s) = some s := by
  cases ht with
  | @empty b hb =>
    have hdrop : dropBlanks (Source.ofText (b ++ ['\x7d']) ++ s) = some '\x7d' :: s := by
      rw [ofText_append, List.append_assoc]
      exact dropBlanks_append_cons hb rfl s
    show skipValueWithin (depth + 1) (some '\x7b' :: (Source.ofText (b ++ ['\x7d']) ++ s)) = _
    rw [skipValueWithin, dropBlanks_cons rfl]
    simp only [hdrop]
  | @elements _ b t hb ht =>
    have hmembers : skipMembersWithin depth (Source.ofText t ++ s) = some s := by
      refine skipMembersWithin_enumerated ht hnames hvalues ?_
      simp only [List.length_cons, List.length_append] at hdepth
      omega
    obtain ⟨rest, rfl⟩ := ht.exists_quote
    have hdrop : dropBlanks (Source.ofText (b ++ '"' :: rest) ++ s)
        = some '"' :: (Source.ofText rest ++ s) := by
      rw [ofText_append, List.append_assoc]
      exact dropBlanks_append_cons hb rfl _
    show skipValueWithin (depth + 1) (some '\x7b' :: (Source.ofText (b ++ '"' :: rest) ++ s)) = _
    rw [skipValueWithin, dropBlanks_cons rfl]
    simp only [hdrop]
    exact hmembers

/-- **A well-formed value is passed over.** The induction is on the value; what is inside of
it is shorter than it is. -/
theorem WellFormed.passes {v : Text} (h : WellFormed v) : Passes v := by
  have hne {v : Text} (h : WellFormed v) : v ≠ [] := by
    obtain ⟨c, cs, rfl, -⟩ := h.exists_cons
    exact List.cons_ne_nil c cs
  induction h with
  | @literal t ht =>
    refine .of_succ (hne (.literal ht)) fun depth s _ _ => ?_
    simp only [List.mem_cons, List.not_mem_nil, or_false] at ht
    obtain rfl | rfl | rfl := ht
    · exact dropText?_ofText_append ['r', 'u', 'e'] s
    · exact dropText?_ofText_append ['a', 'l', 's', 'e'] s
    · exact dropText?_ofText_append ['u', 'l', 'l'] s
  | @number t ht =>
    refine .of_succ (hne (.number ht)) fun depth s _ hs => ?_
    obtain ⟨c, cs, rfl, hc⟩ := ht.exists_cons
    exact (skipValueWithin_number hc depth _).trans (ht.skipNumber hs)
  | @text t ht =>
    refine .of_succ (hne (.text ht)) fun depth s _ _ => ?_
    show Json.skipQuoted (Source.ofText (t ++ ['"']) ++ s) = some s
    rw [ofText_append, List.append_assoc]
    exact ht.skipQuoted s
  | @list values t ht hvalues ih =>
    exact .of_succ (hne (.list ht hvalues)) fun depth s hdepth _ =>
      skipValueWithin_list ht (fun v hv => (hvalues v hv).exists_cons) ih hdepth s
  | @object ms t ht hnames hvalues ih =>
    exact .of_succ (hne (.object ht hnames hvalues)) fun depth s hdepth _ =>
      skipValueWithin_object ht hnames ih hdepth s

/-- **A value that nobody asked for is passed over**, with the blanks in front of it. -/
theorem WellFormed.skipValue {v b : Text} (h : WellFormed v) (hb : Blanks b) {s : Source}
    (hs : s.EndsNumber) :
    skipValue (Source.ofText b ++ (Source.ofText v ++ s)) = some s := by
  rw [Json.skipValue, skipValueWithin_blanks hb]
  refine h.passes ?_ hs
  simp only [List.length_append, Source.ofText, List.length_map]
  omega

end Json

end Descent
