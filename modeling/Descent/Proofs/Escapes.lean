import Descent.Proofs.Boundary
import Mathlib.Data.List.TakeWhile

/-!
# Escapes by number

What an escape by number is, told without the machinery that reads it. There are
six forms of it (`NumberForm`), each with what stands before its digits, which
digits it takes, and what stands after them. `NumberForm.escape?` reads a
form at the beginning of a text: its digits are as many as there are, up to the
most the form has, and they are never taken back.

An escape that was matched is taken apart a second time to find its value, and
the second reading sees the escape alone, without the text after it. The digits
are the same (`CodeForm.digits?_escape`): what closes an escape is no digit.
So a form of escape with its value is one function of the text
(`NumberForm.found?_code`), and `Literal.escapeAt?` says which escape stands at a
backslash.
-/

namespace Descent

open Literal (valueIn isOctalDigit isHexDigit)
open Text (dropExact? dropExact?_eq_some_iff)

/-- The forms of escapes by number. -/
inductive NumberForm where
  | octal
  | hex2
  | unicode4
  | hexVar
  | jsCodePoint
  | csharpCodePoint
  deriving Repr, DecidableEq

namespace NumberForm

/-- All forms, in the order of trial. -/
def inOrder : List NumberForm := [octal, hex2, unicode4, hexVar, jsCodePoint, csharpCodePoint]

/-- Whether a format allows the form. -/
def isAllowed (format : StringFormat) : NumberForm → Bool
  | octal => format.octal
  | hex2 => format.hex2
  | unicode4 => format.unicode4
  | hexVar => format.hexVar
  | jsCodePoint => format.jsCodePoint
  | csharpCodePoint => format.csharpCodePoint

/-- What stands before the digits. -/
def opening : NumberForm → Text
  | octal => ['\\']
  | hex2 | hexVar => ['\\', 'x']
  | unicode4 => ['\\', 'u']
  | jsCodePoint => ['\\', 'u', '\x7b']
  | csharpCodePoint => ['\\', 'U']

/-- What stands after the digits. -/
def closing : NumberForm → Text
  | jsCodePoint => ['\x7d']
  | _ => []

/-- The radix of the digits. -/
def base : NumberForm → Nat
  | octal => 8
  | _ => 16

/-- Exactly so many digits, if there are so many. -/
def exactly? (isDigit : Char → Bool) (n : Nat) (rest : Text) : Option Text :=
  if (rest.take n).length = n ∧ (rest.take n).all isDigit then some (rest.take n) else none

/-- The digits of the form after its opening. -/
def digits? : NumberForm → Text → Option Text
  | octal, [] => none
  | octal, c :: rest =>
    if '0' ≤ c ∧ c ≤ '3' then (exactly? isOctalDigit 2 rest).map (c :: ·) else none
  | hex2, rest => exactly? isHexDigit 2 rest
  | unicode4, rest => exactly? isHexDigit 4 rest
  | csharpCodePoint, rest => exactly? isHexDigit 8 rest
  | hexVar, rest =>
    if rest.takeWhile isHexDigit = [] then none else some ((rest.takeWhile isHexDigit).take 4)
  | jsCodePoint, rest =>
    if rest.takeWhile isHexDigit = [] then none
    else if (rest.dropWhile isHexDigit).head? = some '\x7d' then some (rest.takeWhile isHexDigit)
    else none

/-- **The escape of the form at the beginning of a text**, with the character of
its number. -/
def escape? (form : NumberForm) (rest : Text) : Option (Text × Char) := do
  let digits ← form.digits? (← dropExact? form.opening rest)
  let c ← CodeForm.charOf? (valueIn form.base digits)
  return (form.opening ++ digits ++ form.closing, c)

end NumberForm

namespace Literal

/-- The escape of one character at the beginning of a text: a backslash and a
character that does not end the line, if the escape function gives it a meaning. -/
def pair? (escape : Escape) : Text → Option (Text × Text)
  | '\\' :: c :: _ => if c = '\n' then none else (escape c).map fun t => (['\\', c], t)
  | _ => none

/-- **The escape at the beginning of a text**, with what it stands for: the first
form by number that is allowed and denotes a character, or else an escape of one
character. -/
def escapeAt? (escape : Escape) (format : StringFormat) (rest : Text) : Option (Text × Text) :=
  match (NumberForm.inOrder.filter (·.isAllowed format)).findSome? (·.escape? rest) with
  | some (whole, c) => some (whole, [c])
  | none => pair? escape rest

end Literal

/-! ## The digits of an escape are read again -/

namespace CodeForm

variable {form : CodeForm} {rest digits cs : Text} {c : Char}

/-- What an escape of the form closes with is neither a first digit nor a further one. -/
def ClosesDigits (form : CodeForm) : Prop :=
  ∀ c ∈ form.closing.head?, form.isFirst c = false ∧ form.isDigit c = false

/-- As many as there are, up to the most. -/
def upToMost (form : CodeForm) (digits : Text) : Text :=
  match form.most with
  | none => digits
  | some n => digits.take n

theorem digits_cons_of_first (h : form.isFirst c = true) :
    form.digits (c :: cs) = form.upToMost (c :: cs.takeWhile form.isDigit) := by
  unfold digits upToMost
  cases form.most with
  | none => simp [h]
  | some n => simp [h]

theorem digits_eq_nil (h : ∀ c ∈ rest.head?, form.isFirst c = false) : form.digits rest = [] := by
  cases rest with
  | nil =>
    unfold digits
    cases form.most <;> simp
  | cons c cs =>
    unfold digits
    cases form.most <;> simp [h c rfl]

/-- Where the first digit is as the others, the digits are a run of them. -/
theorem digits_eq_upToMost (h : form.isFirst = form.isDigit) (rest : Text) :
    form.digits rest = form.upToMost (rest.takeWhile form.isDigit) := by
  cases rest with
  | nil =>
    unfold digits upToMost
    cases form.most <;> rfl
  | cons c cs =>
    by_cases hfirst : form.isFirst c = true
    · rw [digits_cons_of_first hfirst, List.takeWhile_cons_of_pos (h ▸ hfirst)]
    · rw [digits_eq_nil (by simpa using hfirst), List.takeWhile_cons_of_neg (h ▸ hfirst)]
      unfold upToMost
      cases form.most <;> simp

/-- A run of digits ends where the escape is closed. -/
theorem takeWhile_append_closing (h : form.ClosesDigits) (hdigits : ∀ x ∈ digits, form.isDigit x) :
    (digits ++ form.closing).takeWhile form.isDigit = digits := by
  rw [List.takeWhile_append_of_pos hdigits]
  unfold ClosesDigits at h
  cases hclosing : form.closing with
  | nil => rw [List.takeWhile_nil, List.append_nil]
  | cons c cs =>
    rw [hclosing] at h
    rw [List.takeWhile_cons_of_neg (by simp [(h c rfl).2]), List.append_nil]

/-- **Digits before the closing are read again**, though what followed them is gone. -/
theorem digits_append_closing (h : form.ClosesDigits) (rest : Text) :
    form.digits (form.digits rest ++ form.closing) = form.digits rest := by
  have hnone : form.digits form.closing = [] := digits_eq_nil fun c hc => (h c hc).1
  cases rest with
  | nil =>
    have hempty : form.digits [] = [] := digits_eq_nil (by simp)
    rw [hempty, List.nil_append, hnone]
  | cons c cs =>
    by_cases hfirst : form.isFirst c = true
    · have hrun : ∀ x ∈ cs.takeWhile form.isDigit, form.isDigit x := fun x hx =>
        List.mem_takeWhile_imp hx
      rw [digits_cons_of_first hfirst]
      cases hmost : form.most with
      | none =>
        simp only [upToMost, hmost, List.cons_append]
        rw [digits_cons_of_first hfirst, takeWhile_append_closing h hrun]
        simp only [upToMost, hmost]
      | some n =>
        cases n with
        | zero => simp only [upToMost, hmost, List.take_zero, List.nil_append, hnone]
        | succ n =>
          simp only [upToMost, hmost, List.take_succ_cons, List.cons_append]
          rw [digits_cons_of_first hfirst,
            takeWhile_append_closing h fun x hx => hrun x (List.mem_of_mem_take hx)]
          simp only [upToMost, hmost, List.take_succ_cons, List.take_take, Nat.min_self]
    · have hempty : form.digits (c :: cs) = [] := digits_eq_nil (by simpa using hfirst)
      rw [hempty, List.nil_append, hnone]

/-- The digits of the form where its opening was read, if they are enough and the
closing stands after them. -/
def closedDigits? (form : CodeForm) (rest : Text) : Option Text :=
  if (form.digits rest).length < form.least then none
  else (dropExact? form.closing (rest.drop (form.digits rest).length)).map fun _ =>
    form.digits rest

theorem digits?_eq_bind (form : CodeForm) (cs : Text) :
    form.digits? cs = (dropExact? form.opening cs).bind form.closedDigits? := by
  refine Option.bind_congr fun rest _ => ?_
  rw [closedDigits?, Option.map_eq_bind]
  rfl

theorem digits?_eq_some_iff :
    form.digits? cs = some digits ↔ ∃ rest, cs = form.opening ++ rest ∧ digits = form.digits rest
      ∧ form.least ≤ digits.length ∧ ∃ left, rest.drop digits.length = form.closing ++ left := by
  simp only [digits?, bind, Option.bind_eq_some_iff, Option.ite_none_left_eq_some,
    dropExact?_eq_some_iff, Option.some.injEq, Nat.not_lt]
  constructor
  · rintro ⟨rest, rfl, hleast, left, hclose, rfl⟩
    exact ⟨rest, rfl, rfl, hleast, left, hclose⟩
  · rintro ⟨rest, rfl, rfl, hleast, left, hclose⟩
    exact ⟨rest, rfl, hleast, left, hclose, rfl⟩

/-- **An escape that was read is read again** where nothing follows it. -/
theorem digits?_escape (h : form.ClosesDigits) (hd : form.digits? cs = some digits) :
    form.digits? (form.opening ++ digits ++ form.closing) = some digits := by
  obtain ⟨rest, -, rfl, hleast, -⟩ := digits?_eq_some_iff.mp hd
  refine digits?_eq_some_iff.mpr ⟨form.digits rest ++ form.closing, List.append_assoc _ _ _, ?_⟩
  refine ⟨(digits_append_closing h rest).symm, hleast, [], ?_⟩
  rw [List.drop_left, List.append_nil]

/-- The escape of the form at the beginning of a text, with what it stands for. -/
def found? (form : CodeForm) (rest : Text) : Option (Text × Text) :=
  (form.reader rest).bind fun m => (form.meaning m.text).map fun t => (m.text, t)

theorem found?_eq (h : form.ClosesDigits) (rest : Text) :
    form.found? rest = (form.digits? rest).bind fun digits =>
      (charOf? (valueIn form.base digits)).map fun c =>
        (form.opening ++ digits ++ form.closing, [c]) := by
  rw [found?, reader, Option.bind_map]
  refine Option.bind_congr fun digits hd => ?_
  simp only [Function.comp, Match.here, meaning, digits?_escape h hd, Option.bind_some,
    Option.map_map]
  rfl

end CodeForm

/-! ## The six forms -/

namespace NumberForm

/-- How the form is read. -/
def code : NumberForm → CodeForm
  | octal => .octal
  | hex2 => .hex2
  | unicode4 => .unicode4
  | hexVar => .hexVar
  | jsCodePoint => .jsCodePoint
  | csharpCodePoint => .csharpCodePoint

/-- The forms are tried in their order. -/
theorem codeForms_eq (format : StringFormat) :
    format.codeForms = (inOrder.filter (·.isAllowed format)).map code := by
  obtain ⟨_, octal, hex2, unicode4, hexVar, jsCodePoint, csharpCodePoint⟩ := format
  cases octal <;> cases hex2 <;> cases unicode4 <;> cases hexVar <;> cases jsCodePoint <;>
    cases csharpCodePoint <;> rfl

theorem closesDigits_code (form : NumberForm) : form.code.ClosesDigits := by
  intro c hc
  cases form with
  | jsCodePoint =>
    obtain rfl := Option.some.inj hc
    decide
  | _ => exact absurd hc (Option.not_mem_none c)

/-- There are so many digits, or a run of them is shorter. -/
theorem exactly?_eq (isDigit : Char → Bool) (n : Nat) (rest : Text) :
    exactly? isDigit n rest = if ((rest.takeWhile isDigit).take n).length < n then none
      else some ((rest.takeWhile isDigit).take n) := by
  rw [List.take_takeWhile, exactly?]
  have hmost : (rest.take n).length ≤ n := List.length_take_le n rest
  generalize rest.take n = front at hmost ⊢
  by_cases hall : front.all isDigit = true
  · have hself : front.takeWhile isDigit = front :=
      List.takeWhile_eq_self_iff.mpr (List.all_eq_true.mp hall)
    rw [hself]
    by_cases hlength : front.length = n
    · rw [if_pos ⟨hlength, hall⟩, if_neg (by omega)]
    · rw [if_neg (fun h => hlength h.1), if_pos (by omega)]
  · -- a run that stops early is shorter than what it is a run of
    have hrun := List.takeWhile_prefix isDigit (l := front)
    have hshort : (front.takeWhile isDigit).length < front.length := by
      refine Nat.lt_of_le_of_ne hrun.length_le fun hlength => hall ?_
      exact List.all_eq_true.mpr (List.takeWhile_eq_self_iff.mp (hrun.eq_of_length hlength))
    rw [if_neg (fun h => hall h.2), if_pos (by omega)]

theorem closedDigits?_octal (rest : Text) :
    CodeForm.octal.closedDigits? rest = octal.digits? rest := by
  cases rest with
  | nil => rfl
  | cons c cs =>
    rw [CodeForm.closedDigits?, digits?]
    by_cases hfirst : '0' ≤ c ∧ c ≤ '3'
    · have hdigits : CodeForm.octal.digits (c :: cs)
          = c :: (cs.takeWhile isOctalDigit).take 2 :=
        CodeForm.digits_cons_of_first (by simpa [CodeForm.octal] using hfirst)
      rw [hdigits, if_pos hfirst, exactly?_eq]
      have hleast : (c :: (cs.takeWhile isOctalDigit).take 2).length < CodeForm.octal.least
          ↔ ((cs.takeWhile isOctalDigit).take 2).length < 2 := Nat.succ_lt_succ_iff
      by_cases hshort : ((cs.takeWhile isOctalDigit).take 2).length < 2
      · rw [if_pos (hleast.mpr hshort), if_pos hshort]
        rfl
      · rw [if_neg (mt hleast.mp hshort), if_neg hshort]
        rfl
    · have hdigits : CodeForm.octal.digits (c :: cs) = [] :=
        CodeForm.digits_eq_nil (by simpa [CodeForm.octal] using hfirst)
      rw [hdigits, if_neg hfirst]
      rfl

/-- A form of so many hexadecimal digits, with nothing after them. -/
theorem closedDigits?_exactly (pattern : String) (opening : Text) (n : Nat) (rest : Text) :
    (CodeForm.hex pattern opening n (some n) []).closedDigits? rest
      = exactly? isHexDigit n rest := by
  have hdigits : (CodeForm.hex pattern opening n (some n) []).digits rest
      = (rest.takeWhile isHexDigit).take n := CodeForm.digits_eq_upToMost rfl rest
  rw [CodeForm.closedDigits?, hdigits, exactly?_eq]
  rfl

theorem closedDigits?_hexVar (rest : Text) :
    CodeForm.hexVar.closedDigits? rest = hexVar.digits? rest := by
  have hdigits : CodeForm.hexVar.digits rest = (rest.takeWhile isHexDigit).take 4 :=
    CodeForm.digits_eq_upToMost rfl rest
  rw [CodeForm.closedDigits?, hdigits, digits?]
  cases rest.takeWhile isHexDigit with
  | nil => rfl
  | cons c run => rfl

theorem closedDigits?_jsCodePoint (rest : Text) :
    CodeForm.jsCodePoint.closedDigits? rest = jsCodePoint.digits? rest := by
  have hdigits : CodeForm.jsCodePoint.digits rest = rest.takeWhile isHexDigit :=
    CodeForm.digits_eq_upToMost rfl rest
  have hleft : rest.drop (rest.takeWhile isHexDigit).length = rest.dropWhile isHexDigit := by
    have hsplit : (rest.takeWhile isHexDigit ++ rest.dropWhile isHexDigit).drop
        (rest.takeWhile isHexDigit).length = rest.dropWhile isHexDigit := List.drop_left
    rwa [List.takeWhile_append_dropWhile] at hsplit
  rw [CodeForm.closedDigits?, hdigits, hleft, digits?]
  cases rest.takeWhile isHexDigit with
  | nil => rfl
  | cons c run =>
    cases rest.dropWhile isHexDigit with
    | nil => rfl
    | cons d left =>
      by_cases hd : '\x7d' = d
      · subst hd
        rfl
      · have hclose : dropExact? CodeForm.jsCodePoint.closing (d :: left) = none := if_neg hd
        simp only [hclose, Option.map_none, ite_self, List.head?_cons, Option.some.injEq,
          Ne.symm hd, if_false]

/-- **The digits of a form are those that its text says.** -/
theorem closedDigits?_code (form : NumberForm) (rest : Text) :
    form.code.closedDigits? rest = form.digits? rest := by
  cases form with
  | octal => exact closedDigits?_octal rest
  | hex2 => exact closedDigits?_exactly _ _ 2 rest
  | unicode4 => exact closedDigits?_exactly _ _ 4 rest
  | hexVar => exact closedDigits?_hexVar rest
  | jsCodePoint => exact closedDigits?_jsCodePoint rest
  | csharpCodePoint => exact closedDigits?_exactly _ _ 8 rest

/-- **An escape by number is what its text says.** -/
theorem found?_code (form : NumberForm) (rest : Text) :
    form.code.found? rest = (form.escape? rest).map fun e => (e.1, [e.2]) := by
  have hopening : form.code.opening = form.opening := by cases form <;> rfl
  have hclosing : form.code.closing = form.closing := by cases form <;> rfl
  have hbase : form.code.base = form.base := by cases form <;> rfl
  rw [CodeForm.found?_eq form.closesDigits_code, CodeForm.digits?_eq_bind, hopening, hclosing,
    hbase, funext form.closedDigits?_code, escape?]
  simp only [Option.bind_eq_bind, Option.pure_def, Option.bind_assoc,
    Option.map_eq_bind, Option.bind_some, Function.comp_def]

/-- Half a surrogate pair has the form of an escape, and denotes no character. -/
example : unicode4.digits? "d83d".toList = some "d83d".toList
    ∧ unicode4.escape? "\\ud83d".toList = none := by
  decide

end NumberForm

/-! ## Where escapes stand -/

/-- An escape by number begins with a backslash. -/
theorem NumberForm.escape?_of_ne {c : Char} {cs : Text} (hc : c ≠ '\\') (form : NumberForm) :
    form.escape? (c :: cs) = none := by
  have hopen : dropExact? form.opening (c :: cs) = none := by
    cases form <;> exact if_neg (Ne.symm hc)
  rw [escape?, hopen]
  rfl

/-- An escape by number is not empty and stands first. -/
theorem NumberForm.isPrefix_of_escape? {form : NumberForm} {rest w : Text} {c : Char}
    (h : form.escape? rest = some (w, c)) : w ≠ [] ∧ w <+: rest := by
  have hfound : form.code.found? rest = some (w, [c]) := by
    rw [found?_code, h]
    rfl
  obtain ⟨m, hread, hmeaning⟩ := Option.bind_eq_some_iff.mp hfound
  obtain ⟨t, -, heq⟩ := Option.map_eq_some_iff.mp hmeaning
  obtain ⟨rfl, -⟩ := Prod.mk.inj heq
  have hstands := Reader.Sound.codeForm form.code hread
  obtain ⟨digits, -, rfl⟩ := Option.map_eq_some_iff.mp hread
  have hopening : form.code.opening ≠ [] := by cases form <;> exact List.cons_ne_nil _ _
  refine ⟨fun hempty => hopening ?_, hstands⟩
  exact (List.append_eq_nil_iff.mp (List.append_eq_nil_iff.mp hempty).1).1

namespace Literal

variable {escape : Escape} {format : StringFormat} {rest w t : Text}

/-- An escape stands at a backslash. -/
theorem escapeAt?_of_ne {c : Char} {cs : Text} (hc : c ≠ '\\') (escape : Escape)
    (format : StringFormat) : escapeAt? escape format (c :: cs) = none := by
  have hforms : (NumberForm.inOrder.filter (·.isAllowed format)).findSome?
      (·.escape? (c :: cs)) = none :=
    List.findSome?_eq_none_iff.mpr fun form _ => form.escape?_of_ne hc
  rw [escapeAt?, hforms]
  simp only [pair?]
  split
  · next heq => exact absurd (List.cons.inj heq).1 hc
  · rfl

/-- **An escape is not empty and stands first.** -/
theorem isPrefix_of_escapeAt? (h : escapeAt? escape format rest = some (w, t)) :
    w ≠ [] ∧ w <+: rest := by
  unfold escapeAt? at h
  split at h
  · next whole c hform =>
    obtain ⟨form, -, hescape⟩ := List.exists_of_findSome?_eq_some hform
    obtain ⟨rfl, -⟩ := Prod.mk.inj (Option.some.inj h)
    exact form.isPrefix_of_escape? hescape
  · unfold pair? at h
    split at h
    · next c cs _ =>
      simp only [Option.ite_none_left_eq_some, Option.map_eq_some_iff, Prod.mk.injEq] at h
      obtain ⟨-, -, -, rfl, -⟩ := h
      exact ⟨List.cons_ne_nil _ _, cs, rfl⟩
    · exact absurd h (by simp)

end Literal

end Descent
