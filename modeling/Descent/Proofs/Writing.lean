import Descent.Options
import Mathlib.Data.List.Forall2

/-!
# What is written is read back

Options are written as one object, all members in order and no blanks, and reading
the object gives the options again, from a text as well as from a file that holds
the text (`options_read_back`).

**Readers leave what follows.** Everything that is written is read back in front of
whatever may follow it: a text in quotes in front of anything, since its closing
quote ends it (`readText_quote`), a value of a codec in front of what does not go on
with a number (`Codec.Faithful`), the members of a record in front of the closing
brace. So the readers compose as the writers do, and no reader has to be shown to
stop early by a property of the whole text.

**A record is put together again from its default.** Reading starts at the default
and lets every member make its change, so what has to be known of a record is that
the changes its members write, made one after the other, lead from the default to
the record (`Record.Faithful`). Nothing else is particular to a type of options.
-/

namespace Descent

namespace Json

variable {α ρ : Type}

/-! ## The bytes of a text -/

namespace Source

/-- The bytes of characters are these characters, whatever bytes stand before them. -/
theorem ofBytesFrom_utf8Encode (before : ByteArray) (text : Text) :
    ofBytesFrom (before ++ text.utf8Encode) before.size = ofText text := by
  induction text generalizing before with
  | nil =>
    rw [ofBytesFrom, if_neg (by simp)]
    rfl
  | cons c cs ih =>
    have hsplit : before ++ (c :: cs).utf8Encode = (before ++ [c].utf8Encode) ++ cs.utf8Encode := by
      rw [ByteArray.append_assoc, ← List.utf8Encode_append, List.singleton_append]
    have hnext : before.size + c.utf8Size = (before ++ [c].utf8Encode).size := by
      rw [ByteArray.size_append, List.utf8Encode_singleton, List.size_toByteArray,
        String.length_utf8EncodeChar]
    have hchar : (before ++ (c :: cs).utf8Encode).utf8DecodeChar? before.size = some c := by
      rw [ByteArray.utf8DecodeChar?_eq_utf8DecodeChar?_extract,
        ByteArray.extract_append_eq_right rfl (ByteArray.size_append ..),
        List.utf8DecodeChar?_utf8Encode_cons]
    have hinside : before.size < (before ++ (c :: cs).utf8Encode).size :=
      ByteArray.lt_size_of_isSome_utf8DecodeChar? (by rw [hchar]; rfl)
    rw [ofBytesFrom, if_pos hinside, hchar]
    simp only []
    rw [hnext, hsplit, ih]
    rfl

/-- **A file that holds a text is read as the text.** -/
theorem ofBytes_toUTF8 (text : String) : ofBytes text.toUTF8 = ofText text.toList := by
  have h := ofBytesFrom_utf8Encode ByteArray.empty text.toList
  rw [ByteArray.empty_append, String.utf8Encode_toList] at h
  exact h

end Source

/-! ## Quoted texts -/

section Quoted

variable {read : Text} {s : Source}

theorem readQuoted_close : readQuoted read (some '"' :: s) = some (read.reverse, s) := by
  rw [readQuoted]

theorem readQuoted_pair {c e : Char} (h : unescape? e = some c) :
    readQuoted read (some '\\' :: some e :: s) = readQuoted (c :: read) s := by
  have hne : e ≠ 'u' := by
    rintro rfl
    simp [unescape?] at h
  rw [readQuoted, h]
  · rfl
  · simp_all
  · simp_all

theorem readQuoted_itself {c : Char} (hquote : c ≠ '"') (hbackslash : c ≠ '\\')
    (hgraphic : ¬c.toNat < 32) : readQuoted read (some c :: s) = readQuoted (c :: read) s := by
  rw [readQuoted, if_neg hgraphic] <;> simp_all

/-- **An escape by number**, with the one that follows it if it is the first half of a
character. -/
theorem readQuoted_hex {a b c d : Char} {n : Nat} (h : hex4? a b c d = some n) :
    readQuoted read (some '\\' :: some 'u' :: some a :: some b :: some c :: some d :: s)
      = if isHighHalf n then
          match s with
          | some '\\' :: some 'u' :: some e :: some f :: some g :: some h :: s => do
            let m ← hex4? e f g h
            if isLowHalf m then readQuoted (joinHalves n m :: read) s else none
          | _ => none
        else if isLowHalf n then none else readQuoted (Char.ofNat n :: read) s := by
  conv_lhs => rw [readQuoted.eq_def]
  split
  case h_2 heq =>
    simp only [List.cons.injEq, Option.some.injEq, true_and] at heq
    obtain ⟨rfl, rfl, rfl, rfl, rfl⟩ := heq
    simp only [h, Option.bind_eq_bind, Option.bind_some]
  case h_3 hno heq =>
    simp only [List.cons.injEq, Option.some.injEq, true_and] at heq
    obtain ⟨rfl, rfl, rfl, rfl, rfl⟩ := heq
    simp only [h, Option.bind_eq_bind, Option.bind_some]
    by_cases hhigh : isHighHalf n = true
    · simp only [hhigh, Bool.true_or, if_true]
    · simp [hhigh]
  -- the other cases begin in another way
  case h_1 heq => exact absurd heq (by simp)
  case h_4 hno heq =>
    simp only [List.cons.injEq, Option.some.injEq, true_and] at heq
    exact (hno a b c d s heq.2.symm heq.1.symm).elim
  case h_5 hno heq =>
    simp only [List.cons.injEq, Option.some.injEq] at heq
    exact (hno 'u' _ heq.2.symm heq.1.symm).elim
  case h_6 hno => exact (hno _ _ rfl).elim

/-- A number that is no half of a character is read alone, also where another
number follows it. -/
theorem readQuoted_number {a b c d : Char} {n : Nat} (h : hex4? a b c d = some n)
    (hhigh : isHighHalf n = false) (hlow : isLowHalf n = false) :
    readQuoted read (some '\\' :: some 'u' :: some a :: some b :: some c :: some d :: s)
      = readQuoted (Char.ofNat n :: read) s := by
  rw [readQuoted_hex h, hhigh, hlow]
  rfl

theorem unescape?_of_shortEscape? {c e : Char} (h : shortEscape? c = some e) :
    unescape? e = some c := by
  unfold shortEscape? at h
  split at h
  case h_6 => exact absurd h (by simp)
  all_goals
    obtain rfl := Option.some.inj h
    rfl

/-- The number of a control character, in four digits. -/
theorem hex4?_control : ∀ n : Fin 32,
    hex4? '0' '0' (hexDigit (n / 16)) (hexDigit (n % 16)) = some n.val := by
  decide

/-- **A character is read back**, however it is written. -/
theorem readQuoted_escapeChar (c : Char) (read : Text) (s : Source) :
    readQuoted read (Source.ofText (escapeChar c) ++ s) = readQuoted (c :: read) s := by
  unfold escapeChar
  split
  · next h =>
    refine readQuoted_pair ?_
    obtain rfl | rfl := h <;> rfl
  · next h =>
    obtain ⟨hquote, hbackslash⟩ := not_or.mp h
    split
    · next e he => exact readQuoted_pair (unescape?_of_shortEscape? he)
    · split
      · next hcontrol =>
        have hn := hex4?_control ⟨c.toNat, hcontrol⟩
        refine (readQuoted_number hn ?_ ?_).trans ?_
        · simp [isHighHalf]; omega
        · simp [isLowHalf]; omega
        · rw [Char.ofNat_toNat]
          rfl
      · next hgraphic => exact readQuoted_itself hquote hbackslash hgraphic

theorem readQuoted_escaped (text read : Text) (s : Source) :
    readQuoted read (Source.ofText (text.flatMap escapeChar) ++ some '"' :: s)
      = some (read.reverse ++ text, s) := by
  induction text generalizing read with
  | nil =>
    rw [List.append_nil]
    exact readQuoted_close
  | cons c cs ih =>
    rw [List.flatMap_cons, ofText_append, List.append_assoc, readQuoted_escapeChar, ih,
      List.reverse_cons, List.append_assoc, List.singleton_append]

/-- **A text in quotes is read back.** -/
theorem readText_quote (text : Text) (s : Source) :
    readText (Source.ofText (quote text) ++ s) = some (text, s) := by
  have hquote : Source.ofText (quote text) ++ s
      = some '"' :: (Source.ofText (text.flatMap escapeChar) ++ some '"' :: s) := by
    rw [quote, List.cons_append, Source.ofText, List.map_cons, List.map_append, List.cons_append,
      List.append_assoc]
    rfl
  rw [hquote]
  exact readQuoted_escaped text [] s

end Quoted

/-! ## Values -/

/-- Nothing at the beginning of the source goes on with a number before it. -/
def Source.EndsNumber (s : Source) : Prop :=
  ∀ c, s.head? = some (some c) → c.isDigit = false ∧ c ≠ '.' ∧ c ≠ 'e' ∧ c ≠ 'E'

/-- Nothing at the beginning of the source goes on with digits before it. -/
def Source.EndsDigits (s : Source) : Prop := ∀ c, s.head? = some (some c) → c.isDigit = false

theorem Source.EndsNumber.endsDigits {s : Source} (h : s.EndsNumber) : s.EndsDigits :=
  fun c hc => (h c hc).1

/-- **A codec is faithful**: what it writes is read back where nothing goes on with it. -/
def Codec.Faithful (codec : Codec α) : Prop :=
  ∀ a s, s.EndsNumber → codec.read (Source.ofText (codec.write a) ++ s) = some (a, s)

theorem dropBlanks_cons {c : Char} (h : isBlank c = false) (s : Source) :
    dropBlanks (some c :: s) = some c :: s := by
  rw [dropBlanks, if_neg (by simp [h])]

theorem isBlank_of_isDigit {c : Char} (h : c.isDigit = true) : isBlank c = false := by
  unfold isBlank
  by_contra hblank
  simp only [Bool.not_eq_false, Bool.or_eq_true, beq_iff_eq] at hblank
  obtain ((rfl | rfl) | rfl) | rfl := hblank <;> exact absurd h (by decide)

theorem takeDigits_append {digits : Text} {s : Source} (h : ∀ c ∈ digits, c.isDigit = true)
    (hs : s.EndsDigits) : takeDigits (Source.ofText digits ++ s) = (digits, s) := by
  induction digits with
  | nil =>
    rcases s with _ | ⟨_ | c, s⟩
    · rfl
    · rfl
    · show takeDigits (some c :: s) = _
      rw [takeDigits, if_neg (by simp [hs c rfl])]
  | cons c cs ih =>
    show takeDigits (some c :: (Source.ofText cs ++ s)) = _
    rw [takeDigits, if_pos (h c List.mem_cons_self), ih fun d hd => h d (List.mem_cons_of_mem c hd)]

/-- **A whole number is taken** where no digit goes on with it. -/
theorem takeWhole?_append {digits : Text} {s : Source} (hne : digits ≠ [])
    (h : ∀ c ∈ digits, c.isDigit = true) (hzero : ∀ d ds, digits ≠ '0' :: d :: ds)
    (hs : s.EndsDigits) : takeWhole? (Source.ofText digits ++ s) = some (digits, s) := by
  rw [takeWhole?, takeDigits_append h hs]
  split
  · next h => exact absurd (Prod.mk.inj h).1 hne
  · next h => exact absurd (Prod.mk.inj h).1 (hzero _ _)
  · rfl

/-- No numeral of more than one digit begins with a zero. -/
theorem toDigits_ne_zero_cons (n : Nat) (d : Char) (ds : Text) :
    Nat.toDigits 10 n ≠ '0' :: d :: ds := by
  induction n using Nat.strongRecOn generalizing d ds with
  | ind n ih =>
    by_cases hn : n < 10
    · rw [Nat.toDigits_of_lt_base hn]
      exact fun h => absurd (List.cons.inj h).2 (List.cons_ne_nil d ds).symm
    · rw [Nat.toDigits_of_base_le (by decide) (Nat.not_lt.mp hn)]
      have hless : n / 10 < n := Nat.div_lt_self (by omega) (by decide)
      intro h
      cases hfront : Nat.toDigits 10 (n / 10) with
      | nil => exact Nat.toDigits_ne_nil hfront
      | cons c cs =>
        rw [hfront] at h
        obtain ⟨rfl, -⟩ := List.cons.inj h
        cases cs with
        | cons d' cs => exact ih (n / 10) hless d' cs hfront
        | nil =>
          -- a lone zero is the numeral of zero, and the number has two digits
          have hzero : n / 10 = 0 := by
            rw [← Nat.ofDigitChars_ten_toDigits (n := n / 10), hfront]
            rfl
          omega

theorem isDigit_of_mem_toDigits {n : Nat} {c : Char} (h : c ∈ Nat.toDigits 10 n) :
    c.isDigit = true :=
  Nat.isDigit_of_mem_toDigits (by decide) (by decide) h

/-- **A whole number is a word** if it is small enough and nothing goes on with it. -/
theorem word_read_append {digits : Text} {s : Source} (hne : digits ≠ [])
    (h : ∀ c ∈ digits, c.isDigit = true) (hzero : ∀ d ds, digits ≠ '0' :: d :: ds)
    (hs : s.EndsNumber) :
    word.read (Source.ofText digits ++ s)
      = if Nat.ofDigitChars 10 digits 0 < 0x10000000000000000
        then some ((Nat.ofDigitChars 10 digits 0).toUInt64, s)
        else none := by
  have htake := takeWhole?_append hne h hzero hs.endsDigits
  obtain ⟨c, cs, rfl⟩ := List.exists_cons_of_ne_nil hne
  have hdrop : dropBlanks (Source.ofText (c :: cs) ++ s) = Source.ofText (c :: cs) ++ s :=
    dropBlanks_cons (isBlank_of_isDigit (h c List.mem_cons_self)) _
  simp only [word, hdrop, htake, Option.bind_eq_bind, Option.bind_some]
  split
  · exact absurd rfl (hs _ rfl).2.1
  · exact absurd rfl (hs _ rfl).2.2.1
  · exact absurd rfl (hs _ rfl).2.2.2
  · rfl

/-- **Every word is read back**, the largest ones included. -/
theorem word_faithful : word.Faithful := by
  intro n s hs
  have hwrite : word.write n = Nat.toDigits 10 n.toNat := by
    show (toString n.toNat).toList = _
    rw [Nat.toString_eq_ofList_toDigits, String.toList_ofList]
  rw [hwrite, word_read_append Nat.toDigits_ne_nil (fun _ hc => isDigit_of_mem_toDigits hc)
    (toDigits_ne_zero_cons _) hs, Nat.ofDigitChars_ten_toDigits, if_pos n.toNat_lt,
    Nat.toUInt64_eq, UInt64.ofNat_toNat]

theorem flag_faithful : flag.Faithful := by
  intro b s _
  cases b with
  | true => exact congrArg (Option.map _) (dropText?_ofText_append ['r', 'u', 'e'] s)
  | false => exact congrArg (Option.map _) (dropText?_ofText_append ['a', 'l', 's', 'e'] s)

theorem optionalText_faithful : optionalText.Faithful := by
  intro text s _
  cases text with
  | none => exact congrArg (Option.map _) (dropText?_ofText_append ['u', 'l', 'l'] s)
  | some text =>
    have h := congrArg (Option.map fun e => (some (String.ofList e.1), e.2))
      (readText_quote text.toList s)
    rw [Option.map_some, String.ofList_toList] at h
    exact h

/-! ## Records -/

/-- **What a member writes of a record is read back**, as a change. -/
def Field.Restores (f : Field ρ) (r : ρ) (change : ρ → ρ) : Prop :=
  ∀ s, s.EndsNumber → f.read (Source.ofText (f.write r) ++ s) = some (change, s)

theorem Codec.Faithful.restores {codec : Codec α} (h : codec.Faithful) (name : String)
    (get : ρ → α) (set : α → ρ → ρ) (r : ρ) :
    (Field.of name codec get set).Restores r (set (get r)) := by
  intro s hs
  show (codec.read (Source.ofText (codec.write (get r)) ++ s)).map _ = _
  rw [h _ s hs]
  rfl

namespace Record

variable {record : Record ρ} {f : Field ρ} {fs : List (Field ρ)} {r x : ρ} {change : ρ → ρ}
variable {changes : List (ρ → ρ)} {seen : List String} {s : Source}

/-- The text of a member. -/
def writeField (f : Field ρ) (r : ρ) : Text := quote f.name.toList ++ ':' :: f.write r

theorem writeFields_cons_cons (f g : Field ρ) (fs : List (Field ρ)) (r : ρ) :
    writeFields r (f :: g :: fs) = writeField f r ++ ',' :: writeFields r (g :: fs) := by
  rw [writeFields, writeField, List.append_assoc]
  exact List.cons_ne_nil g fs

theorem writeFields_cons (f : Field ρ) (fs : List (Field ρ)) (r : ρ) :
    ∃ left, writeFields r (f :: fs) = '"' :: left := by
  cases fs with
  | nil => exact ⟨_, rfl⟩
  | cons g fs => exact ⟨_, writeFields_cons_cons f g fs r⟩

theorem length_le_writeFields (r : ρ) (fs : List (Field ρ)) :
    fs.length ≤ (writeFields r fs).length := by
  induction fs with
  | nil => exact Nat.le_refl 0
  | cons f fs ih =>
    cases fs with
    | nil => simp [writeFields, quote]
    | cons g fs =>
      rw [writeFields_cons_cons]
      simp only [List.length_cons, List.length_append] at ih ⊢
      omega

/-- Neither the closing brace nor a comma goes on with a number. -/
theorem endsNumber_cons {c : Char} (h : c = '\x7d' ∨ c = ',') (s : Source) :
    Source.EndsNumber (some c :: s) := by
  intro d hd
  obtain rfl := Option.some.inj (Option.some.inj hd)
  obtain rfl | rfl := h <;> decide

/-- **A member is taken** that is known and was not there before, and the list ends or
goes on behind it. -/
theorem readMembers_writeField (steps : Nat)
    (hknown : record.fields.find? (·.name == f.name) = some f)
    (hnew : seen.contains f.name = false) (hrestores : f.Restores r change) (s : Source) :
    record.readMembers (steps + 1) seen x (Source.ofText (writeField f r) ++ some '\x7d' :: s)
      = some (change x, s)
    ∧ record.readMembers (steps + 1) seen x (Source.ofText (writeField f r) ++ some ',' :: s)
      = record.readMembers steps (f.name :: seen) (change x) s := by
  have htext (t : Source) : Source.ofText (writeField f r) ++ t
      = Source.ofText (quote f.name.toList)
        ++ (some ':' :: (Source.ofText (f.write r) ++ t)) := by
    rw [writeField, ofText_append, List.append_assoc]
    rfl
  have hblanks (t : Source) : dropBlanks (Source.ofText (quote f.name.toList) ++ t)
      = Source.ofText (quote f.name.toList) ++ t :=
    dropBlanks_cons rfl _
  have hcolon : isBlank ':' = false := rfl
  constructor
  · have hbrace : isBlank '\x7d' = false := rfl
    rw [htext, readMembers, hblanks, readText_quote]
    simp only [Option.bind_eq_bind, Option.bind_some, dropBlanks_cons hcolon, String.ofList_toList,
      hknown, hnew, hrestores _ (endsNumber_cons (.inl rfl) s), Option.map_some,
      Bool.false_eq_true, if_false, dropBlanks_cons hbrace]
  · have hcomma : isBlank ',' = false := rfl
    rw [htext, readMembers, hblanks, readText_quote]
    simp only [Option.bind_eq_bind, Option.bind_some, dropBlanks_cons hcolon, String.ofList_toList,
      hknown, hnew, hrestores _ (endsNumber_cons (.inr rfl) s), Option.map_some,
      Bool.false_eq_true, if_false, dropBlanks_cons hcomma]

/-- **Members are taken one after the other**, each with its change. The induction is
on the members; what was seen before the first of them is none of them. -/
theorem readMembers_writeFields
    (hfields : List.Forall₂ (fun f change => f.Restores r change) fs changes) (hne : fs ≠ [])
    (hknown : ∀ f ∈ fs, record.fields.find? (·.name == f.name) = some f)
    (hnames : (fs.map (·.name)).Nodup) (hnew : ∀ f ∈ fs, seen.contains f.name = false)
    {steps : Nat} (hsteps : fs.length ≤ steps) :
    record.readMembers steps seen x (Source.ofText (writeFields r fs) ++ some '\x7d' :: s)
      = some (changes.foldl (fun x change => change x) x, s) := by
  induction hfields generalizing seen x steps with
  | nil => exact absurd rfl hne
  | @cons f change fs changes hrestores hfields ih =>
    obtain ⟨steps, rfl⟩ : ∃ n, steps = n + 1 := ⟨steps - 1, by simp at hsteps; omega⟩
    have hf := hknown f List.mem_cons_self
    have hf' := hnew f List.mem_cons_self
    cases hfields with
    | nil =>
      show record.readMembers (steps + 1) seen x
        (Source.ofText (writeField f r) ++ some '\x7d' :: s) = _
      exact (readMembers_writeField steps hf hf' hrestores s).1
    | @cons g _ fs _ hrestores' hfields' =>
      have htext : Source.ofText (writeFields r (f :: g :: fs)) ++ some '\x7d' :: s
          = Source.ofText (writeField f r)
            ++ some ',' :: (Source.ofText (writeFields r (g :: fs)) ++ some '\x7d' :: s) := by
        rw [writeFields_cons_cons, ofText_append, List.append_assoc]
        rfl
      rw [htext, (readMembers_writeField steps hf hf' hrestores _).2]
      rw [List.map_cons, List.nodup_cons] at hnames
      refine ih (List.cons_ne_nil _ _) (fun h hh => hknown h (List.mem_cons_of_mem _ hh)) hnames.2
        (fun h hh => ?_) (by simpa using hsteps)
      have hname : h.name ≠ f.name := fun heq => hnames.1 (heq ▸ List.mem_map_of_mem hh)
      rw [List.contains_cons, Bool.or_eq_false_iff]
      exact ⟨by simpa using hname, hnew h (List.mem_cons_of_mem _ hh)⟩

/-- A member is known by its name. -/
theorem find?_name (hnames : (fs.map (·.name)).Nodup) (hf : f ∈ fs) :
    fs.find? (·.name == f.name) = some f := by
  induction fs with
  | nil => exact absurd hf List.not_mem_nil
  | cons g fs ih =>
    rw [List.map_cons, List.nodup_cons] at hnames
    obtain rfl | hf := List.mem_cons.mp hf
    · rw [List.find?_cons_of_pos (by simp)]
    · have hne : g.name ≠ f.name := fun heq => hnames.1 (heq ▸ List.mem_map_of_mem hf)
      rw [List.find?_cons_of_neg (by simpa using hne), ih hnames.2 hf]

/-- **A record is faithful**: its members have different names, and the changes that
they write lead from the default to the record. -/
structure Faithful (record : Record ρ) : Prop where
  names : (record.fields.map (·.name)).Nodup
  restores : ∀ r, ∃ changes,
    List.Forall₂ (fun f change => f.Restores r change) record.fields changes
      ∧ changes.foldl (fun x change => change x) record.default = r

namespace Faithful

variable (h : record.Faithful)
include h

theorem reader_write (r : ρ) : record.reader (Source.ofText (record.write r)) = some (r, []) := by
  obtain ⟨changes, hfields, hr⟩ := h.restores r
  have htext : Source.ofText (record.write r)
      = some '\x7b' :: (Source.ofText (writeFields r record.fields) ++ [some '\x7d']) := by
    rw [write, Source.ofText, List.cons_append, List.map_cons, List.map_append]
    rfl
  rw [reader, htext, dropBlanks_cons rfl]
  simp only []
  cases hall : record.fields with
  | nil =>
    rw [hall] at hfields
    obtain rfl := List.forall₂_nil_left_iff.mp hfields
    exact congrArg (fun r => some (r, [])) hr
  | cons f fs =>
    obtain ⟨left, hleft⟩ := writeFields_cons f fs r
    have hsource : Source.ofText (writeFields r (f :: fs)) ++ [some '\x7d']
        = some '"' :: (Source.ofText left ++ [some '\x7d']) := by
      rw [hleft]
      rfl
    have hsteps : record.fields.length
        ≤ (Source.ofText (writeFields r record.fields) ++ [some '\x7d']).length := by
      have hlength := length_le_writeFields r record.fields
      simp only [List.length_append, Source.ofText, List.length_map]
      omega
    have hmembers : record.readMembers _ [] record.default
        (Source.ofText (writeFields r record.fields) ++ [some '\x7d']) = some (_, []) :=
      readMembers_writeFields hfields (hall ▸ List.cons_ne_nil f fs)
        (fun g hg => find?_name h.names hg) h.names (fun _ _ => rfl) hsteps
    rw [hr, hall, hsource] at hmembers
    rw [hsource, dropBlanks_cons rfl]
    exact hmembers

/-- **A record that is written is read back.** -/
theorem read?_write (r : ρ) : record.read? (Source.ofText (record.write r)) = some r := by
  rw [read?, h.reader_write]
  rfl

theorem ofText_toText (r : ρ) : record.ofText (record.toText r) = .ok r := by
  rw [ofText, ofSource, toText, String.toList_ofList, h.read?_write]

theorem ofFile_toText (r : ρ) : record.ofFile (.holding (record.toText r).toUTF8) = .ok r := by
  rw [ofFile, Source.ofBytes_toUTF8]
  exact h.ofText_toText r

end Faithful

end Record

end Json

/-! ## Options -/

open Json

theorem ParseOptions.record_faithful : ParseOptions.record.Faithful where
  names := by decide
  restores _ := ⟨_, .cons (word_faithful.restores _ _ _ _)
    (.cons (optionalText_faithful.restores _ _ _ _)
      (.cons (optionalText_faithful.restores _ _ _ _) .nil)), rfl⟩

theorem NumberFormat.record_faithful : NumberFormat.record.Faithful where
  names := by decide
  restores _ := ⟨_, .cons (flag_faithful.restores _ _ _ _)
    (.cons (flag_faithful.restores _ _ _ _) .nil), rfl⟩

theorem StringFormat.record_faithful : StringFormat.record.Faithful where
  names := by decide
  restores _ :=
    have hflag (name : String) (get : StringFormat → Bool)
        (set : Bool → StringFormat → StringFormat) (format : StringFormat) :=
      flag_faithful.restores name get set format
    ⟨_, .cons (hflag _ _ _ _) (.cons (hflag _ _ _ _) (.cons (hflag _ _ _ _)
      (.cons (hflag _ _ _ _) (.cons (hflag _ _ _ _) (.cons (hflag _ _ _ _)
        (.cons (hflag _ _ _ _) .nil)))))), rfl⟩

/-- **Options survive being written.** Run options with any start and any patterns, and
the formats of literals, are read back from their text, and from a file that holds it. -/
theorem options_read_back :
    (∀ options : ParseOptions,
      ParseOptions.record.ofText (ParseOptions.record.toText options) = .ok options
        ∧ ParseOptions.record.ofFile (.holding (ParseOptions.record.toText options).toUTF8)
          = .ok options)
    ∧ (∀ format : NumberFormat,
      NumberFormat.record.ofText (NumberFormat.record.toText format) = .ok format
        ∧ NumberFormat.record.ofFile (.holding (NumberFormat.record.toText format).toUTF8)
          = .ok format)
    ∧ ∀ format : StringFormat,
      StringFormat.record.ofText (StringFormat.record.toText format) = .ok format
        ∧ StringFormat.record.ofFile (.holding (StringFormat.record.toText format).toUTF8)
          = .ok format := by
  refine ⟨fun options => ?_, fun format => ?_, fun format => ?_⟩
  · have h := ParseOptions.record_faithful
    exact ⟨h.ofText_toText options, h.ofFile_toText options⟩
  · have h := NumberFormat.record_faithful
    exact ⟨h.ofText_toText format, h.ofFile_toText format⟩
  · have h := StringFormat.record_faithful
    exact ⟨h.ofText_toText format, h.ofFile_toText format⟩

/-- Quotes, backslashes and control characters of a pattern are escaped. -/
example : ParseOptions.record.toText { start := 65536, skip := some "\"\\\t\x01𝔸" }
    = "\x7b\"start\":65536,\"skip\":\"\\\"\\\\\\t\\u0001𝔸\",\"follow\":null\x7d" := by
  decide

end Descent
