import Descent.Proofs.Passing

/-!
# Spelled texts and the values of members

A text between quotes may be spelled with escapes or without, and what it spells is read
from it (`Spells.readQuoted`). Not everything that may stand between quotes spells
something: an escape of one half of a character does not if the other half is missing.
Whether a text means something, and what, is settled by it alone (`Quotable.exists_means`),
though a first half is read together with what comes after it.

**Values have no choice of where they end.** A codec either reads a well-formed value to
its end or refuses it, whatever follows and whatever blanks stand before
(`Codec.Regular`), also where the value is none of its type: it never takes a part of one.
Of a value of its type it reads that (`Codec.ReadsAs`).
-/

namespace Descent

namespace Json

/-! ## Spelled texts -/

/-- **The escaped text spells the text**: characters for themselves, letters for others,
numbers of characters, and the two halves of the characters beyond the first 65536. -/
inductive Spells : Text → Text → Prop where
  | nil : Spells [] []
  | itself {c : Char} {raw text : Text} (hc : Graphic c) (h : Spells raw text) :
      Spells (c :: raw) (c :: text)
  | letter {e c : Char} {raw text : Text}
      (he : (e, c) ∈ [('"', '"'), ('\\', '\\'), ('/', '/'), ('b', '\x08'), ('f', '\x0c'),
        ('n', '\n'), ('r', '\r'), ('t', '\t')])
      (h : Spells raw text) : Spells ('\\' :: e :: raw) (c :: text)
  | number {c : Char} {digits raw text : Text} (hn : Hex4 c.toNat digits) (h : Spells raw text) :
      Spells ('\\' :: 'u' :: (digits ++ raw)) (c :: text)
  | halves {c : Char} {high low : Nat} {digits digits' raw text : Text}
      (hhigh : Hex4 high digits) (hlow : Hex4 low digits')
      (hrange : 0xD800 ≤ high ∧ high < 0xDC00) (hrange' : 0xDC00 ≤ low ∧ low < 0xE000)
      (hc : c.toNat = 0x10000 + (high - 0xD800) * 0x400 + (low - 0xDC00)) (h : Spells raw text) :
      Spells ('\\' :: 'u' :: (digits ++ '\\' :: 'u' :: (digits' ++ raw))) (c :: text)

section Quoted

variable {read raw text : Text} {s : Source} {a b c d : Char} {n : Nat}

theorem isHighHalf_eq_true_iff : isHighHalf n = true ↔ 0xD800 ≤ n ∧ n < 0xDC00 := by
  rw [isHighHalf, Bool.and_eq_true, decide_eq_true_iff, decide_eq_true_iff]

theorem isLowHalf_eq_true_iff : isLowHalf n = true ↔ 0xDC00 ≤ n ∧ n < 0xE000 := by
  rw [isLowHalf, Bool.and_eq_true, decide_eq_true_iff, decide_eq_true_iff]

theorem toNat_ofNat (h : n.isValidChar) : (Char.ofNat n).toNat = n := by
  rw [Char.ofNat, dif_pos h]
  rfl

/-- The number of a character is that of no half. -/
theorem isHalf_toNat (c : Char) : isHighHalf c.toNat = false ∧ isLowHalf c.toNat = false := by
  have hvalid : c.toNat < 0xD800 ∨ 0xDFFF < c.toNat ∧ c.toNat < 0x110000 := c.valid
  rw [← Bool.not_eq_true, ← Bool.not_eq_true, isHighHalf_eq_true_iff, isLowHalf_eq_true_iff]
  omega

/-- The two halves of a character, one after the other. -/
theorem readQuoted_halves {e f g h : Char} {high low : Nat} (hhigh : hex4? a b c d = some high)
    (hlow : hex4? e f g h = some low) (hrange : 0xD800 ≤ high ∧ high < 0xDC00)
    (hrange' : 0xDC00 ≤ low ∧ low < 0xE000) :
    readQuoted read (some '\\' :: some 'u' :: some a :: some b :: some c :: some d
        :: some '\\' :: some 'u' :: some e :: some f :: some g :: some h :: s)
      = readQuoted (joinHalves high low :: read) s := by
  rw [readQuoted_hex hhigh, if_pos (isHighHalf_eq_true_iff.mpr hrange)]
  simp only [hlow, Option.bind_eq_bind, Option.bind_some,
    if_pos (isLowHalf_eq_true_iff.mpr hrange')]

/-- **A spelled text is read.** The induction is on the characters that are spelled. -/
theorem Spells.readQuoted (h : Spells raw text) (read : Text) (s : Source) :
    readQuoted read (Source.ofText raw ++ some '"' :: s) = some (read.reverse ++ text, s) := by
  have hcons (c : Char) (read text : Text) :
      (c :: read).reverse ++ text = read.reverse ++ c :: text := by
    rw [List.reverse_cons, List.append_assoc, List.singleton_append]
  induction h generalizing read with
  | nil =>
    rw [List.append_nil]
    exact readQuoted_close
  | @itself c raw text hc h ih =>
    obtain ⟨hgraphic, hquote, hbackslash⟩ := hc
    show Json.readQuoted read (some c :: (Source.ofText raw ++ some '"' :: s)) = _
    rw [readQuoted_itself hquote hbackslash (Nat.not_lt.mpr hgraphic), ih, hcons]
  | @letter e c raw text he h ih =>
    have hletter : unescape? e = some c := by
      simp only [List.mem_cons, Prod.mk.injEq, List.not_mem_nil, or_false] at he
      obtain ⟨rfl, rfl⟩ | ⟨rfl, rfl⟩ | ⟨rfl, rfl⟩ | ⟨rfl, rfl⟩ | ⟨rfl, rfl⟩ | ⟨rfl, rfl⟩
        | ⟨rfl, rfl⟩ | ⟨rfl, rfl⟩ := he <;> rfl
    show Json.readQuoted read (some '\\' :: some e :: (Source.ofText raw ++ some '"' :: s)) = _
    rw [readQuoted_pair hletter, ih, hcons]
  | @number c digits raw text hn h ih =>
    obtain ⟨a, b, c', d, rfl, hex⟩ := hn.exists_digits
    obtain ⟨hhigh, hlow⟩ := isHalf_toNat c
    show Json.readQuoted read (some '\\' :: some 'u' :: some a :: some b :: some c' :: some d
      :: (Source.ofText raw ++ some '"' :: s)) = _
    rw [readQuoted_number hex hhigh hlow, Char.ofNat_toNat, ih, hcons]
  | @halves c high low digits digits' raw text hhigh hlow hrange hrange' hc h ih =>
    obtain ⟨a, b, c', d, rfl, hex⟩ := hhigh.exists_digits
    obtain ⟨e, f, g, h', rfl, hex'⟩ := hlow.exists_digits
    show Json.readQuoted read (some '\\' :: some 'u' :: some a :: some b :: some c' :: some d
      :: some '\\' :: some 'u' :: some e :: some f :: some g :: some h'
      :: (Source.ofText raw ++ some '"' :: s)) = _
    rw [readQuoted_halves hex hex' hrange hrange', joinHalves, ← hc, Char.ofNat_toNat, ih, hcons]

/-- **What the escaped text means**, if it spells anything: it is read so whatever was read
before it and whatever follows it. -/
structure Means (raw : Text) (meaning : Option Text) : Prop where
  spells : ∀ text, meaning = some text → Spells raw text
  read : ∀ read s, readQuoted read (Source.ofText raw ++ some '"' :: s)
    = meaning.map fun text => (read.reverse ++ text, s)

/-- A character before what means something. -/
theorem Means.cons {rest : Text} {meaning : Option Text} {c : Char} (h : Means rest meaning)
    (hspells : ∀ text, Spells rest text → Spells raw (c :: text))
    (hread : ∀ read s, readQuoted read (Source.ofText raw ++ some '"' :: s)
      = readQuoted (c :: read) (Source.ofText rest ++ some '"' :: s)) :
    Means raw (meaning.map (c :: ·)) where
  spells text htext := by
    obtain ⟨rest, hrest, rfl⟩ := Option.map_eq_some_iff.mp htext
    exact hspells rest (h.spells rest hrest)
  read read s := by
    rw [hread, h.read, Option.map_map]
    refine congrArg (Option.map · meaning) (funext fun text => ?_)
    rw [List.reverse_cons, List.append_assoc, List.singleton_append]
    rfl

theorem Means.none (hread : ∀ read s,
    readQuoted read (Source.ofText raw ++ some '"' :: s) = Option.none) : Means raw none where
  spells text htext := absurd htext.symm (Option.some_ne_none text)
  read := hread

theorem exists_letter {e : Char} (h : e ∈ ['"', '\\', '/', 'b', 'f', 'n', 'r', 't']) :
    ∃ c, unescape? e = some c ∧ ∀ {raw text : Text}, Spells raw text →
      Spells ('\\' :: e :: raw) (c :: text) := by
  simp only [List.mem_cons, List.not_mem_nil, or_false] at h
  obtain rfl | rfl | rfl | rfl | rfl | rfl | rfl | rfl := h <;>
    exact ⟨_, rfl, fun h => .letter (by decide) h⟩

theorem HexDigit.lt {i : Nat} (h : HexDigit i c) : i < 16 := by
  obtain h | h := h <;> exact (List.getElem?_eq_some_iff.mp h).1

/-- Four digits do not go beyond the first 65536 numbers. -/
theorem Hex4.lt {digits : Text} (h : Hex4 n digits) : n < 0x10000 := by
  obtain ⟨ha, hb, hc, hd⟩ := h
  have := ha.lt
  have := hb.lt
  have := hc.lt
  have := hd.lt
  omega

section Halves

variable {digits digits' rest : Text} {meaning : Option Text} {m : Nat}

/-- A number of a character, before what means something. -/
theorem Means.number (h : Means rest meaning) (hn : Hex4 n digits) (hhigh : ¬isHighHalf n = true)
    (hlow : ¬isLowHalf n = true) :
    Means ('\\' :: 'u' :: (digits ++ rest)) (meaning.map (Char.ofNat n :: ·)) := by
  obtain ⟨a, b, c, d, rfl, hex⟩ := hn.exists_digits
  have hvalid : n.isValidChar := by
    have hlt := hn.lt
    rw [isHighHalf_eq_true_iff] at hhigh
    rw [isLowHalf_eq_true_iff] at hlow
    show n < 0xD800 ∨ 0xDFFF < n ∧ n < 0x110000
    omega
  exact h.cons (fun _ h => .number ((toNat_ofNat hvalid).symm ▸ hn) h) fun _ _ =>
    readQuoted_number hex (Bool.eq_false_iff.mpr hhigh) (Bool.eq_false_iff.mpr hlow)

/-- The two halves of a character, before what means something. -/
theorem Means.halves (h : Means rest meaning) (hn : Hex4 n digits) (hm : Hex4 m digits')
    (hhigh : isHighHalf n = true) (hlow : isLowHalf m = true) :
    Means ('\\' :: 'u' :: (digits ++ '\\' :: 'u' :: (digits' ++ rest)))
      (meaning.map (joinHalves n m :: ·)) := by
  obtain ⟨a, b, c, d, rfl, hex⟩ := hn.exists_digits
  obtain ⟨e, f, g, h', rfl, hex'⟩ := hm.exists_digits
  have hrange := isHighHalf_eq_true_iff.mp hhigh
  have hrange' := isLowHalf_eq_true_iff.mp hlow
  have hvalid : (0x10000 + (n - 0xD800) * 0x400 + (m - 0xDC00)).isValidChar :=
    .inr ⟨by omega, by omega⟩
  exact h.cons (fun _ h => .halves hn hm hrange hrange' (toNat_ofNat hvalid) h) fun _ _ =>
    readQuoted_halves hex hex' hrange hrange'

/-- A second half by itself means nothing. -/
theorem means_none_of_low (hn : Hex4 n digits) (hlow : isLowHalf n = true) (rest : Text) :
    Means ('\\' :: 'u' :: (digits ++ rest)) none := by
  obtain ⟨a, b, c, d, rfl, hex⟩ := hn.exists_digits
  have hhigh : ¬isHighHalf n = true := by
    rw [isHighHalf_eq_true_iff]
    rw [isLowHalf_eq_true_iff] at hlow
    omega
  refine .none fun read s => (readQuoted_hex hex).trans ?_
  rw [if_neg hhigh, if_pos hlow]

/-- A first half means nothing if no number comes after it. -/
theorem means_none_of_alone (hn : Hex4 n digits) (hhigh : isHighHalf n = true)
    (hno : ∀ s s', Source.ofText rest ++ some '"' :: s ≠ some '\\' :: some 'u' :: s') :
    Means ('\\' :: 'u' :: (digits ++ rest)) none := by
  obtain ⟨a, b, c, d, rfl, hex⟩ := hn.exists_digits
  refine .none fun read s => (readQuoted_hex hex).trans ?_
  rw [if_pos hhigh]
  split
  · next heq => exact absurd heq (hno s _)
  · rfl

/-- A first half means nothing if the number after it is no second half. -/
theorem means_none_of_unpaired (hn : Hex4 n digits) (hm : Hex4 m digits')
    (hhigh : isHighHalf n = true) (hlow : ¬isLowHalf m = true) (rest : Text) :
    Means ('\\' :: 'u' :: (digits ++ '\\' :: 'u' :: (digits' ++ rest))) none := by
  obtain ⟨a, b, c, d, rfl, hex⟩ := hn.exists_digits
  obtain ⟨e, f, g, h, rfl, hex'⟩ := hm.exists_digits
  refine .none fun read s => (readQuoted_hex hex).trans ?_
  rw [if_pos hhigh]
  show (hex4? e f g h).bind _ = _
  rw [hex', Option.bind_some, if_neg hlow]

end Halves

/-- **What may be quoted means something or nothing**, by itself. The induction is on the
length, since a first half is read with what comes after it. -/
theorem Quotable.exists_means (h : Quotable raw) : ∃ meaning, Means raw meaning := by
  induction hlength : raw.length using Nat.strongRecOn generalizing raw with
  | ind length ih =>
    subst hlength
    cases h with
    | nil =>
      refine ⟨some [], fun text htext => Option.some.inj htext ▸ .nil, fun read s => ?_⟩
      rw [Option.map_some, List.append_nil]
      exact readQuoted_close
    | @itself c rest hc hrest =>
      obtain ⟨meaning, hmeaning⟩ := ih rest.length (by simp) hrest rfl
      exact ⟨_, hmeaning.cons (fun _ h => .itself hc h) fun _ _ =>
        readQuoted_itself hc.2.1 hc.2.2 (Nat.not_lt.mpr hc.1)⟩
    | @letter e rest he hrest =>
      obtain ⟨c, hc, hspells⟩ := exists_letter he
      obtain ⟨meaning, hmeaning⟩ := ih rest.length (by grind) hrest rfl
      exact ⟨_, hmeaning.cons (fun _ h => hspells h) fun _ _ => readQuoted_pair hc⟩
    | @number n digits rest hn hrest =>
      by_cases hlow : isLowHalf n = true
      · exact ⟨_, means_none_of_low hn hlow rest⟩
      by_cases hhigh : isHighHalf n = true
      · cases hrest with
        | nil =>
          exact ⟨_, means_none_of_alone hn hhigh fun s s' heq =>
            absurd (List.cons.inj heq).1 (by decide)⟩
        | itself hc =>
          exact ⟨_, means_none_of_alone hn hhigh fun s s' heq =>
            hc.2.2 (Option.some.inj (List.cons.inj heq).1)⟩
        | letter hc =>
          refine ⟨_, means_none_of_alone hn hhigh fun s s' heq => ?_⟩
          obtain rfl := Option.some.inj (List.cons.inj (List.cons.inj heq).2).1
          exact absurd hc (by decide)
        | @number m digits' rest hm hrest =>
          by_cases hlow' : isLowHalf m = true
          · obtain ⟨meaning, hmeaning⟩ := ih rest.length (by grind) hrest rfl
            exact ⟨_, hmeaning.halves hn hm hhigh hlow'⟩
          · exact ⟨_, means_none_of_unpaired hn hm hhigh hlow' rest⟩
      · obtain ⟨meaning, hmeaning⟩ := ih rest.length (by grind) hrest rfl
        exact ⟨_, hmeaning.number hn hhigh hlow⟩

end Quoted

/-! ## Values of members -/

/-- **A codec reads to the end of a value**, or refuses it, whatever follows it and whatever
blanks stand before it. -/
structure Codec.Regular {α : Type} (codec : Codec α) : Prop where
  blanks : ∀ ⦃b⦄, Blanks b → ∀ s, codec.read (Source.ofText b ++ s) = codec.read s
  delimited : ∀ ⦃v⦄, WellFormed v → ∃ a : Option α, ∀ ⦃s⦄, Source.EndsNumber s →
    codec.read (Source.ofText v ++ s) = a.map (·, s)

section Codecs

variable {c : Char} {t : Text} {s : Source}

/-- What is bracketed begins with the bracket. -/
theorem Bracketed.exists_cons {β : Type} {Stands : β → Text → Prop} {opening close : Char}
    {xs : List β} (h : Bracketed Stands opening close xs t) : ∃ rest, t = opening :: rest := by
  cases h <;> exact ⟨_, rfl⟩

/-- A value that begins with no digit is no word. -/
theorem word_read_cons (hblank : isBlank c = false) (hdigit : c.isDigit = false) (s : Source) :
    word.read (some c :: s) = none := by
  have htake : takeWhole? (some c :: s) = none := by
    rw [takeWhole?, takeDigits, if_neg (by simp [hdigit])]
  show (takeWhole? (dropBlanks (some c :: s))).bind _ = none
  rw [dropBlanks_cons hblank, htake]
  rfl

/-- A number that goes on behind its whole part is no word. -/
theorem word_read_goesOn {whole : Text} (hwhole : Digits whole)
    (hzero : ∀ d ds, whole ≠ '0' :: d :: ds) (hc : c = '.' ∨ c = 'e' ∨ c = 'E') :
    word.read (Source.ofText whole ++ some c :: s) = none := by
  have hdigit : c.isDigit = false := by obtain rfl | rfl | rfl := hc <;> rfl
  have htake := takeWhole?_append hwhole.1 hwhole.2 hzero (endsDigits_cons hdigit s)
  obtain ⟨d, ds, rfl, hd⟩ := hwhole.exists_cons
  have hdrop : dropBlanks (Source.ofText (d :: ds) ++ some c :: s)
      = Source.ofText (d :: ds) ++ some c :: s := dropBlanks_cons (isBlank_of_isDigit hd) _
  simp only [word, hdrop, htake, Option.bind_eq_bind, Option.bind_some]
  obtain rfl | rfl | rfl := hc <;> rfl

/-- **A number is a word or none**: one that has no sign, fraction or exponent and is small
enough. -/
theorem word_delimited_number (h : Number t) : ∃ a : Option UInt64, ∀ ⦃s⦄,
    Source.EndsNumber s → word.read (Source.ofText t ++ s) = a.map (·, s) := by
  obtain ⟨hsign, hwhole, hzero, hfraction, hexponent⟩ := h
  rename_i sign whole fraction exponent
  obtain rfl | rfl := hsign
  · obtain rfl | ⟨ds, -, rfl⟩ := hfraction
    · obtain rfl | ⟨e, sign, ds, he, -, -, rfl⟩ := hexponent
      · refine ⟨if Nat.ofDigitChars 10 whole 0 < 0x10000000000000000
          then some (Nat.ofDigitChars 10 whole 0).toUInt64 else none,
          fun s hs => ?_⟩
        rw [List.nil_append, List.append_nil, List.append_nil,
          word_read_append hwhole.1 hwhole.2 hzero hs]
        split <;> rfl
      · refine ⟨none, fun s _ => ?_⟩
        rw [List.nil_append, List.nil_append, ofText_append, List.append_assoc]
        exact word_read_goesOn hwhole hzero (.inr he)
    · refine ⟨none, fun s _ => ?_⟩
      rw [List.nil_append, ofText_append, List.append_assoc]
      exact word_read_goesOn hwhole hzero (.inl rfl)
  · exact ⟨none, fun s _ => word_read_cons rfl rfl _⟩

theorem word_regular : word.Regular where
  blanks b hb s := by
    simp only [word, dropBlanks_append hb]
  delimited := by
    intro v hv
    cases hv with
    | literal ht =>
      simp only [List.mem_cons, List.not_mem_nil, or_false] at ht
      obtain rfl | rfl | rfl := ht <;> exact ⟨none, fun s _ => word_read_cons rfl rfl _⟩
    | number ht => exact word_delimited_number ht
    | text ht => exact ⟨none, fun s _ => word_read_cons rfl rfl _⟩
    | list ht =>
      obtain ⟨rest, rfl⟩ := ht.exists_cons
      exact ⟨none, fun s _ => word_read_cons rfl rfl _⟩
    | object ht =>
      obtain ⟨rest, rfl⟩ := ht.exists_cons
      exact ⟨none, fun s _ => word_read_cons rfl rfl _⟩

/-- A number is no truth value. -/
theorem flag_read_number (hc : c = '-' ∨ c.isDigit = true) (s : Source) :
    flag.read (some c :: s) = none := by
  obtain ⟨hblank, hother⟩ := begins_number hc
  simp only [flag, dropBlanks_cons hblank]
  split
  case h_3 => rfl
  all_goals
    next heq =>
      obtain rfl := Option.some.inj (List.cons.inj heq).1
      exact absurd (by decide) hother

theorem flag_regular : flag.Regular where
  blanks b hb s := by
    simp only [flag, dropBlanks_append hb]
  delimited := by
    intro v hv
    cases hv with
    | literal ht =>
      simp only [List.mem_cons, List.not_mem_nil, or_false] at ht
      obtain rfl | rfl | rfl := ht
      · exact ⟨some true, fun s hs => flag_faithful true s hs⟩
      · exact ⟨some false, fun s hs => flag_faithful false s hs⟩
      · exact ⟨none, fun s _ => rfl⟩
    | number ht =>
      obtain ⟨c, cs, rfl, hc⟩ := ht.exists_cons
      exact ⟨none, fun s _ => flag_read_number hc _⟩
    | text ht => exact ⟨none, fun s _ => rfl⟩
    | list ht =>
      obtain ⟨rest, rfl⟩ := ht.exists_cons
      exact ⟨none, fun s _ => rfl⟩
    | object ht =>
      obtain ⟨rest, rfl⟩ := ht.exists_cons
      exact ⟨none, fun s _ => rfl⟩

/-- A number is no text. -/
theorem optionalText_read_number (hc : c = '-' ∨ c.isDigit = true) (s : Source) :
    optionalText.read (some c :: s) = none := by
  obtain ⟨hblank, hother⟩ := begins_number hc
  have htext : readText (some c :: s) = none := by
    rw [readText]
    rintro s' heq
    obtain rfl := Option.some.inj (List.cons.inj heq).1
    exact hother (by decide)
  simp only [optionalText, dropBlanks_cons hblank]
  split
  · next heq =>
    obtain rfl := Option.some.inj (List.cons.inj heq).1
    exact absurd (by decide) hother
  · rw [htext]
    rfl

/-- A text in quotes is read as what is between them. -/
theorem optionalText_read_quote (s : Source) :
    optionalText.read (Source.ofText ('"' :: (t ++ ['"'])) ++ s)
      = (readQuoted [] (Source.ofText t ++ some '"' :: s)).map
          fun (text, s) => (some (String.ofList text), s) := by
  have htext : Source.ofText ('"' :: (t ++ ['"'])) ++ s
      = some '"' :: (Source.ofText t ++ some '"' :: s) := by
    simp only [Source.ofText, List.map_cons, List.map_append, List.map_nil, List.cons_append,
      List.append_assoc, List.nil_append]
  rw [htext]
  rfl

theorem optionalText_regular : optionalText.Regular where
  blanks b hb s := by
    simp only [optionalText, dropBlanks_append hb]
  delimited := by
    intro v hv
    cases hv with
    | literal ht =>
      simp only [List.mem_cons, List.not_mem_nil, or_false] at ht
      obtain rfl | rfl | rfl := ht
      · exact ⟨none, fun s _ => rfl⟩
      · exact ⟨none, fun s _ => rfl⟩
      · exact ⟨some none, fun s hs => optionalText_faithful none s hs⟩
    | number ht =>
      obtain ⟨c, cs, rfl, hc⟩ := ht.exists_cons
      exact ⟨none, fun s _ => optionalText_read_number hc _⟩
    | text ht =>
      obtain ⟨text, htext⟩ := ht.exists_means
      refine ⟨text.map fun text => some (String.ofList text), fun s _ => ?_⟩
      rw [optionalText_read_quote, htext.read, Option.map_map, Option.map_map]
      rfl
    | list ht =>
      obtain ⟨rest, rfl⟩ := ht.exists_cons
      exact ⟨none, fun s _ => rfl⟩
    | object ht =>
      obtain ⟨rest, rfl⟩ := ht.exists_cons
      exact ⟨none, fun s _ => rfl⟩

end Codecs

/-- A value that a member may have. -/
inductive Scalar where
  | word (n : UInt64)
  | flag (b : Bool)
  | text (text : Option String)

/-- **The text of a value**: a word in plain digits, a truth value by its name, and a text in
quotes with any escapes. -/
inductive Scalar.WrittenAs : Scalar → Text → Prop where
  | word (n : UInt64) : (word n).WrittenAs (toString n.toNat).toList
  | true : (flag true).WrittenAs "true".toList
  | false : (flag false).WrittenAs "false".toList
  | null : (text none).WrittenAs "null".toList
  | quoted {raw : Text} {text : String} (h : Spells raw text.toList) :
      (Scalar.text (some text)).WrittenAs ('"' :: (raw ++ ['"']))

/-- The codec reads a value from each of its texts. -/
def Codec.ReadsAs {α : Type} (codec : Codec α) (scalar : α → Scalar) : Prop :=
  ∀ ⦃a t⦄, (scalar a).WrittenAs t → ∀ ⦃s⦄, Source.EndsNumber s →
    codec.read (Source.ofText t ++ s) = some (a, s)

theorem word_readsAs : word.ReadsAs .word := by
  intro n t ht s hs
  cases ht
  exact word_faithful n s hs

theorem flag_readsAs : flag.ReadsAs .flag := by
  intro b t ht s hs
  cases ht with
  | true => exact flag_faithful true s hs
  | false => exact flag_faithful false s hs

theorem optionalText_readsAs : optionalText.ReadsAs .text := by
  intro text t ht s hs
  cases ht with
  | null => exact optionalText_faithful none s hs
  | quoted h =>
    rw [optionalText_read_quote, h.readQuoted, List.reverse_nil, List.nil_append, Option.map_some]
    simp only [String.ofList_toList]

end Json

end Descent
