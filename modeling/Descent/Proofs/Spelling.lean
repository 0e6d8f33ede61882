import Descent.Proofs.Quoted
import Mathlib.Data.List.Forall2

/-!
# String literals read back what was spelled

To write a string as a literal is to spell each of its characters: a quote and a
backslash with a backslash before them, a newline by its letter, any other character
by itself, and in two of the notations any character by its number. `Dialect.Spells`
says which texts spell a character, and `Dialect.string_spelling` that the parser of
the notation reads from the spellings of a string, one after the other and between
quotes, the string.

Spellings that stand side by side never run into one another: a spelling is read as a
whole whatever follows it (`Spells.scan`). The character after a backslash tells the
forms of escape apart, and the digits of a number either are as many as the form takes
or are closed by a brace. So the scan of the literal passes over one spelling after the
other.

A number may be written with leading zeros and with capital letters; otherwise it is
the numeral that `Nat.toDigits` writes (`IsNumeral`).
-/

namespace Descent

namespace Literal

/-! ## Numerals -/

/-- A hexadecimal numeral of a number, perhaps with zeros in front and with capital
letters. -/
def IsNumeral (n : Nat) (digits : Text) : Prop :=
  ∃ zeros, List.Forall₂ (fun c d => c = d ∨ c = d.toUpper) digits
    (List.replicate zeros '0' ++ Nat.toDigits 16 n)

/-- The sixteen digits, small and capital. -/
theorem digitChar_value : ∀ d : Fin 16,
    (isHexDigit (Nat.digitChar d) = true ∧ digitValue (Nat.digitChar d) = d)
      ∧ isHexDigit (Nat.digitChar d).toUpper = true
      ∧ digitValue (Nat.digitChar d).toUpper = d := by
  decide

theorem valueIn_append_singleton (base : Nat) (digits : Text) (c : Char) :
    valueIn base (digits ++ [c]) = valueIn base digits * base + digitValue c := by
  rw [valueIn, List.foldl_append]
  rfl

section Radix

variable {base : Nat}

/-- A numeral is made of the digits of its radix. -/
theorem mem_toDigits (hbase : 1 < base) (hsixteen : base ≤ 16) {n : Nat} {c : Char}
    (h : c ∈ Nat.toDigits base n) : ∃ d : Fin 16, d < base ∧ c = Nat.digitChar d := by
  induction n using Nat.strongRecOn with
  | ind n ih =>
    by_cases hn : n < base
    · rw [Nat.toDigits_of_lt_base hn, List.mem_singleton] at h
      exact ⟨⟨n, hn.trans_le hsixteen⟩, hn, h⟩
    · rw [Nat.toDigits_of_base_le hbase (Nat.not_lt.mp hn)] at h
      obtain h | h := List.mem_append.mp h
      · exact ih (n / base) (Nat.div_lt_self (by omega) hbase) h
      · have hlast : n % base < base := Nat.mod_lt n (by omega)
        exact ⟨⟨n % base, hlast.trans_le hsixteen⟩, hlast, List.mem_singleton.mp h⟩

/-- **The numeral of a number has the number as its value.** -/
theorem valueIn_toDigits (hbase : 1 < base) (hsixteen : base ≤ 16) (n : Nat) :
    valueIn base (Nat.toDigits base n) = n := by
  induction n using Nat.strongRecOn with
  | ind n ih =>
    by_cases hn : n < base
    · rw [Nat.toDigits_of_lt_base hn, valueIn, List.foldl_cons, List.foldl_nil, Nat.zero_mul,
        Nat.zero_add]
      exact (digitChar_value ⟨n, hn.trans_le hsixteen⟩).1.2
    · have hlast : n % base < 16 := (Nat.mod_lt n (by omega)).trans_le hsixteen
      have hdigit : digitValue (Nat.digitChar (n % base)) = n % base :=
        (digitChar_value ⟨n % base, hlast⟩).1.2
      rw [Nat.toDigits_of_base_le hbase (Nat.not_lt.mp hn), valueIn_append_singleton,
        ih (n / base) (Nat.div_lt_self (by omega) hbase), hdigit]
      exact Nat.div_add_mod' n base

end Radix

/-- Zeros in front do not count. -/
theorem valueIn_zeros (base zeros : Nat) (digits : Text) :
    valueIn base (List.replicate zeros '0' ++ digits) = valueIn base digits := by
  induction zeros with
  | zero => rfl
  | succ zeros ih =>
    have hzero : 0 * base + digitValue '0' = 0 := by
      rw [Nat.zero_mul]
      rfl
    rw [List.replicate_succ, List.cons_append, valueIn, List.foldl_cons, hzero]
    exact ih

/-- Digits of the same values make the same number. -/
theorem valueIn_congr {digits digits' : Text} (base : Nat)
    (h : List.Forall₂ (fun c d => digitValue c = digitValue d) digits digits') :
    valueIn base digits = valueIn base digits' := by
  unfold valueIn
  generalize 0 = acc
  induction h generalizing acc with
  | nil => rfl
  | cons hcd _ ih => rw [List.foldl_cons, List.foldl_cons, hcd, ih]

/-- **Digits that a numeral is written with**, perhaps with zeros in front and with capital
letters, pass every test that the digits of the radix pass, and have the value of the numeral. -/
theorem digits_of_numeral {base n zeros : Nat} {digits : Text} {isDigit : Char → Bool}
    (hbase : 1 < base) (hsixteen : base ≤ 16)
    (hdigit : ∀ d : Fin 16, d < base →
      isDigit (Nat.digitChar d) = true ∧ isDigit (Nat.digitChar d).toUpper = true)
    (h : List.Forall₂ (fun c d => c = d ∨ c = d.toUpper) digits
      (List.replicate zeros '0' ++ Nat.toDigits base n)) :
    (∀ c ∈ digits, isDigit c = true) ∧ valueIn base digits = n := by
  have hsmall : ∀ d ∈ List.replicate zeros '0' ++ Nat.toDigits base n,
      ∃ k : Fin 16, k < base ∧ d = Nat.digitChar k := by
    intro d hd
    obtain hd | hd := List.mem_append.mp hd
    · exact ⟨0, Nat.zero_lt_of_lt hbase, List.eq_of_mem_replicate hd⟩
    · exact mem_toDigits hbase hsixteen hd
  have hdigits := ((List.forall₂_and_left _ _).mpr ⟨hsmall, h.flip⟩).flip
  have hvalues := (List.forall₂_and_left _ _).mp (hdigits.imp (S := fun c d =>
      isDigit c = true ∧ digitValue c = digitValue d) fun c d hcd => by
    obtain ⟨⟨k, hk, rfl⟩, rfl | rfl⟩ := hcd
    · exact ⟨(hdigit k hk).1, rfl⟩
    · exact ⟨(hdigit k hk).2, (digitChar_value k).2.2.trans (digitChar_value k).1.2.symm⟩)
  refine ⟨hvalues.1, ?_⟩
  rw [valueIn_congr base hvalues.2, valueIn_zeros, valueIn_toDigits hbase hsixteen]

namespace IsNumeral

variable {n : Nat} {digits : Text}

/-- A numeral is made of hexadecimal digits, and its value is the number. -/
theorem isHexDigit_and_valueIn (h : IsNumeral n digits) :
    (∀ c ∈ digits, isHexDigit c = true) ∧ valueIn 16 digits = n := by
  obtain ⟨zeros, h⟩ := h
  exact digits_of_numeral (by decide) (by decide)
    (fun d _ => ⟨(digitChar_value d).1.1, (digitChar_value d).2.1⟩) h

theorem ne_nil (h : IsNumeral n digits) : digits ≠ [] := by
  obtain ⟨zeros, h⟩ := h
  rintro rfl
  have hnil := List.forall₂_nil_left_iff.mp h
  exact Nat.toDigits_ne_nil (List.append_eq_nil_iff.mp hnil).2

end IsNumeral

/-! ## Spellings -/

/-- The notations that string literals are known in. -/
inductive Dialect where
  | c
  | csharp
  | java
  | js
  deriving Repr, DecidableEq

namespace Dialect

/-- The escapes of one character. -/
def escape : Dialect → Escape
  | c => .c
  | csharp => .csharp
  | java => .java
  | js => .js

/-- The escapes by number. -/
def format : Dialect → StringFormat
  | c => .c
  | csharp => .csharp
  | java => .java
  | js => .js

/-- The parser of the double-quoted literals of the notation. -/
def string : Dialect → (message : String) → Parser String
  | c => cString
  | csharp => csharpString
  | java => javaString
  | js => jsString

theorem string_eq (d : Dialect) (message : String) :
    d.string message = quotedWith '"' d.escape d.format message := by
  cases d <;> rfl

/-- **The spellings of a character** in a notation. -/
inductive Spells : Dialect → Char → Text → Prop where
  | quote (d : Dialect) : Spells d '"' ['\\', '"']
  | backslash (d : Dialect) : Spells d '\\' ['\\', '\\']
  | newline (d : Dialect) : Spells d '\n' ['\\', 'n']
  | itself (d : Dialect) {c : Char} (hquote : c ≠ '"') (hbackslash : c ≠ '\\')
      (hnewline : c ≠ '\n') : Spells d c [c]
  | braced {c : Char} {digits : Text} (h : IsNumeral c.toNat digits) :
      Spells .js c (['\\', 'u', '\x7b'] ++ digits ++ ['\x7d'])
  | eight {c : Char} {digits : Text} (h : IsNumeral c.toNat digits)
      (hlength : digits.length = 8) : Spells .csharp c (['\\', 'U'] ++ digits)

theorem escapeAt?_quote (d : Dialect) (rest : Text) :
    escapeAt? d.escape d.format ('\\' :: '"' :: rest) = some (['\\', '"'], ['"']) := by
  cases d <;> rfl

theorem escapeAt?_backslash (d : Dialect) (rest : Text) :
    escapeAt? d.escape d.format ('\\' :: '\\' :: rest) = some (['\\', '\\'], ['\\']) := by
  cases d <;> rfl

theorem escapeAt?_newline (d : Dialect) (rest : Text) :
    escapeAt? d.escape d.format ('\\' :: 'n' :: rest) = some (['\\', 'n'], ['\n']) := by
  cases d <;> rfl

/-- A character is the character of its number. -/
theorem charOf?_toNat (c : Char) : CodeForm.charOf? c.toNat = some c := by
  have hvalid : c.toNat.isValidChar := c.valid
  have hself := Char.ofNat_toNat c
  rw [Char.ofNat, dif_pos hvalid] at hself
  rw [CodeForm.charOf?, dif_pos hvalid, hself]

/-- Digits that a form takes, with the character of their number. -/
theorem escape?_of_digits {form : NumberForm} {digits after : Text} {c : Char}
    (hbase : form.base = 16) (h : IsNumeral c.toNat digits)
    (hdigits : form.digits? after = some digits) :
    form.escape? (form.opening ++ after) = some (form.opening ++ digits ++ form.closing, c) := by
  rw [NumberForm.escape?, Text.dropExact?_eq_some_iff.mpr rfl]
  simp only [Option.bind_eq_bind, Option.bind_some, hdigits, hbase, h.isHexDigit_and_valueIn.2,
    charOf?_toNat]
  rfl

/-- The digits before a closing brace are taken. -/
theorem digits?_jsCodePoint {n : Nat} {digits : Text} (h : IsNumeral n digits) (rest : Text) :
    NumberForm.jsCodePoint.digits? (digits ++ '\x7d' :: rest) = some digits := by
  have hbrace : ¬isHexDigit '\x7d' = true := by decide
  have hrun : (digits ++ '\x7d' :: rest).takeWhile isHexDigit = digits := by
    rw [List.takeWhile_append_of_pos h.isHexDigit_and_valueIn.1, List.takeWhile_cons_of_neg hbrace,
      List.append_nil]
  have hleft : (digits ++ '\x7d' :: rest).dropWhile isHexDigit = '\x7d' :: rest := by
    rw [List.dropWhile_append_of_pos h.isHexDigit_and_valueIn.1, List.dropWhile_cons_of_neg hbrace]
  rw [NumberForm.digits?, hrun, if_neg h.ne_nil, hleft, List.head?_cons,
    if_pos rfl]

/-- Eight digits are taken, whatever follows. -/
theorem digits?_csharpCodePoint {n : Nat} {digits : Text} (h : IsNumeral n digits)
    (hlength : digits.length = 8) (rest : Text) :
    NumberForm.csharpCodePoint.digits? (digits ++ rest) = some digits := by
  have htake : (digits ++ rest).take 8 = digits := List.take_left' hlength
  rw [NumberForm.digits?, NumberForm.exactly?, htake,
    if_pos ⟨hlength, List.all_eq_true.mpr h.isHexDigit_and_valueIn.1⟩]

/-- A brace is no digit, so a number in braces is not one of four digits. -/
theorem digits?_unicode4_brace (rest : Text) :
    NumberForm.unicode4.digits? ('\x7b' :: rest) = none := by
  rw [NumberForm.digits?, NumberForm.exactly?, if_neg]
  rintro ⟨-, hall⟩
  exact absurd (List.all_eq_true.mp hall '\x7b' List.mem_cons_self) (by decide)

/-- **A number in braces** is read whatever follows it. -/
theorem escapeAt?_braced {c : Char} {digits : Text} (h : IsNumeral c.toNat digits) (rest : Text) :
    escapeAt? .js .js (['\\', 'u', '\x7b'] ++ digits ++ ['\x7d'] ++ rest)
      = some (['\\', 'u', '\x7b'] ++ digits ++ ['\x7d'], [c]) := by
  have hescape : NumberForm.jsCodePoint.escape? (['\\', 'u', '\x7b'] ++ (digits ++ '\x7d' :: rest))
      = some (['\\', 'u', '\x7b'] ++ digits ++ ['\x7d'], c) :=
    escape?_of_digits rfl h (digits?_jsCodePoint h rest)
  have hfour : NumberForm.unicode4.escape? (['\\', 'u', '\x7b'] ++ (digits ++ '\x7d' :: rest))
      = none := by
    show (NumberForm.unicode4.digits? ('\x7b' :: (digits ++ '\x7d' :: rest))).bind _ = none
    rw [digits?_unicode4_brace]
    rfl
  have hallowed : NumberForm.inOrder.filter (·.isAllowed .js)
      = [.octal, .hex2, .unicode4, .jsCodePoint] := rfl
  rw [List.append_assoc, List.append_assoc, List.singleton_append, escapeAt?, hallowed]
  simp only [List.findSome?_cons, hfour, hescape]
  rfl

/-- **A number of eight digits** is read whatever follows it. -/
theorem escapeAt?_eight {c : Char} {digits : Text} (h : IsNumeral c.toNat digits)
    (hlength : digits.length = 8) (rest : Text) :
    escapeAt? .csharp .csharp (['\\', 'U'] ++ digits ++ rest)
      = some (['\\', 'U'] ++ digits, [c]) := by
  have hescape : NumberForm.csharpCodePoint.escape? (['\\', 'U'] ++ (digits ++ rest))
      = some (['\\', 'U'] ++ digits ++ [], c) :=
    escape?_of_digits rfl h (digits?_csharpCodePoint h hlength rest)
  have hallowed : NumberForm.inOrder.filter (·.isAllowed .csharp)
      = [.unicode4, .hexVar, .csharpCodePoint] := rfl
  rw [List.append_assoc, escapeAt?, hallowed]
  simp only [List.findSome?_cons, hescape]
  rw [List.append_nil]
  rfl

/-! ## Reading what was spelled -/

variable {d : Dialect} {c : Char} {w : Text}

/-- **The scan reads a spelling as its character**, whatever follows it. -/
theorem Spells.scan (h : d.Spells c w) (rest : Text) (offset : Nat) (read : Text) :
    scan '"' d.escape d.format offset read (w ++ rest)
      = scan '"' d.escape d.format (offset + Text.size w) (read ++ [c]) rest := by
  have hquote : '"' ≠ '\\' := by decide
  cases h with
  | quote => exact scan_escape hquote (d.escapeAt?_quote rest) offset read
  | backslash => exact scan_escape hquote (d.escapeAt?_backslash rest) offset read
  | newline => exact scan_escape hquote (d.escapeAt?_newline rest) offset read
  | itself _ hne hbackslash hnewline =>
    refine scan_run (fun x hx => ?_) offset read
    obtain rfl := List.mem_singleton.mp hx
    exact isPlain_eq_true_iff.mpr ⟨hne, hbackslash, fun hline => hnewline hline.1⟩
  | braced h => exact scan_escape hquote (escapeAt?_braced h rest) offset read
  | eight h hlength => exact scan_escape hquote (escapeAt?_eight h hlength rest) offset read

/-- **The scan reads spellings one after the other**, up to the quote. -/
theorem scan_spellings {cs : Text} {spellings : List Text}
    (h : List.Forall₂ d.Spells cs spellings) (t : Text) (offset : Nat) (read : Text) :
    Literal.scan '"' d.escape d.format offset read (spellings.flatten ++ '"' :: t)
      = .ok (offset + Text.size spellings.flatten + 1, read ++ cs) := by
  induction h generalizing offset read with
  | nil =>
    rw [List.flatten_nil, List.nil_append, Literal.scan, if_pos rfl, List.append_nil]
    rfl
  | cons hspells _ ih =>
    rw [List.flatten_cons, List.append_assoc, hspells.scan, ih, Text.size_append,
      ← Nat.add_assoc, List.append_assoc, List.singleton_append]

/-- **What was spelled is read back.** Between quotes, the spellings of the
characters of a string are read as the string, up to just after the closing quote,
whatever follows it. -/
theorem string_spelling (d : Dialect) (message : String) (s : String) (spellings : List Text)
    (hspells : List.Forall₂ d.Spells s.toList spellings) (t : Text) (env : Env)
    (hlength : env.length ≤ maxPosition) (position budget : Nat) (k k' : Knots)
    (log : List Event) (hskip : env.skipFrom position budget k = .done position log k')
    (hrest : env.from? position = some ('"' :: spellings.flatten ++ '"' :: t)) :
    ∃ log', (d.string message).run env position budget k
      = .done (.ok env (position + 1 + Text.size spellings.flatten + 1) s) log' k' := by
  have hliteral : literalAt '"' d.escape d.format message env position position
      = .ok env (position + 1 + Text.size spellings.flatten + 1) s := by
    rw [literalAt, hrest]
    show scanned env message (scan '"' d.escape d.format (position + 1) []
      (spellings.flatten ++ '"' :: t)) = _
    rw [scan_spellings hspells, List.nil_append, scanned, String.ofList_toList]
  have hquote : '"' ≠ '\\' := by decide
  obtain ⟨reply, log', hreply, hdone⟩ :=
    (seqRight_body_literalAt hquote message hlength position).exists_left
      (Eval.bind_eq_done_iff.mpr ⟨position, log, k', [], hskip, rfl, rfl⟩)
  rw [hliteral] at hreply
  cases reply with
  | ok env' stop read =>
    obtain ⟨rfl, rfl, rfl⟩ := Reply.ok.inj hreply
    exact ⟨log', d.string_eq message ▸ quotedWith_of_ok hdone⟩
  | fail message' about => exact absurd hreply (by simp [reworded])

/-- A backslash before a digit, and an accent by number with a zero and a capital. -/
theorem string_spelling_mixed :
    let env := Env.new "\"\\\\0\\u\x7b0E9\x7d\"+".toList
    ∃ log, (js.string "No literal").run env 0 0 .initial
      = .done (.ok env 12 "\\0\u00e9") log .initial := by
  intro env
  have hnumeral : IsNumeral 'é'.toNat ['0', 'E', '9'] :=
    ⟨1, .cons (.inl rfl) (.cons (.inr rfl) (.cons (.inl rfl) .nil))⟩
  have hspells : List.Forall₂ js.Spells "\\0\u00e9".toList
      [['\\', '\\'], ['0'], ['\\', 'u', '\x7b', '0', 'E', '9', '\x7d']] :=
    .cons (.backslash js) (.cons (.itself js (by decide) (by decide) (by decide))
      (.cons (.braced hnumeral) .nil))
  exact string_spelling js "No literal" _ _ hspells ['+'] env (by decide) 0 0 .initial .initial []
    rfl rfl

end Dialect

end Literal

end Descent
