import Descent.Calculator

/-!
# Lines

A line feed ends a line, and a carriage return before it belongs to the end. Nothing
has to end the last line of an input. So one sequence of lines is written in many ways,
but an input is written in one: `Calculator.linesOf` finds the lines that are written
(`linesOf_eq_iff`), whichever way was chosen for each of them.

What is printed for a line is a line again, which asks for a look at what is printed.
A number is written without line feeds in every layout (`Decimal.Layout.onOneLine_write`).
-/

namespace Descent

/-! ## Texts on one line -/

/-- **Nothing in the text ends a line.** -/
def OnOneLine (s : String) : Prop := '\n' ∉ s.toList

instance (s : String) : Decidable (OnOneLine s) := inferInstanceAs (Decidable (¬ _))

namespace OnOneLine

variable {s t : String}

theorem append (hs : OnOneLine s) (ht : OnOneLine t) : OnOneLine (s ++ t) := by
  unfold OnOneLine at hs ht ⊢
  rw [String.toList_append, List.mem_append, not_or]
  exact ⟨hs, ht⟩

theorem ofList {cs : Text} (h : '\n' ∉ cs) : OnOneLine (String.ofList cs) := by
  rwa [OnOneLine, String.toList_ofList]

theorem take (h : OnOneLine s) (n : Nat) : OnOneLine (String.ofList (s.toList.take n)) :=
  ofList fun hmem => h (List.mem_of_mem_take hmem)

theorem drop (h : OnOneLine s) (n : Nat) : OnOneLine (String.ofList (s.toList.drop n)) :=
  ofList fun hmem => h (List.mem_of_mem_drop hmem)

theorem zeros (n : Nat) : OnOneLine (Decimal.zeros n) :=
  ofList fun h => absurd (List.eq_of_mem_replicate h) (by decide)

theorem nat (n : Nat) : OnOneLine (toString n) := by
  intro h
  have hdigit : '\n' ∈ Nat.toDigits 10 n := by simpa using h
  exact absurd (Nat.isDigit_of_mem_toDigits (by decide) (by decide) hdigit) (by decide)

theorem int (i : Int) : OnOneLine (toString i) := by
  cases i with
  | ofNat n => exact nat n
  | negSucc n => exact append (by decide) (nat (n + 1))

end OnOneLine

namespace Decimal.Layout

variable {layout : Layout}

theorem onOneLine_writeTens (h : OnOneLine layout.integerTail) (d : Tens) :
    OnOneLine (layout.writeTens d) := by
  have hdigits : OnOneLine (toString d.digits) := .nat d.digits
  have hpoint : OnOneLine "." := by decide
  unfold writeTens
  simp only []
  split
  · split
    · exact (hdigits.append (.zeros _)).append h
    · split
      · exact ((hdigits.take _).append hpoint).append (hdigits.drop _)
      · exact (OnOneLine.append (by decide) (.zeros _)).append hdigits
  · refine (((hdigits.take 1).append ?_).append (by decide)).append (.int _)
    split
    · decide
    · exact hpoint.append (hdigits.drop 1)

/-- **A number is written on one line.** -/
theorem onOneLine_write (h : OnOneLine layout.integerTail) (x : Float) :
    OnOneLine (layout.write x) := by
  have hsign : OnOneLine (if x.toBits.toNat / twoPow 63 = 1 then "-" else "") := by
    split <;> decide
  unfold write
  simp only []
  split
  · split
    · exact hsign.append (by decide)
    · decide
  · split
    · exact (hsign.append (by decide)).append h
    · exact hsign.append (onOneLine_writeTens h _)

end Decimal.Layout

/-! ## The lines of an input -/

namespace Calculator

/-- **How lines are written**: each with an end of its own, but that the last one may
end where the input does. A carriage return is part of the line where no line feed
follows it, and of the end where one does. -/
inductive Written : List String → Text → Prop where
  | nil : Written [] []
  /-- Without an end there has to be something to be a line. -/
  | last {line : Text} (hline : '\n' ∉ line) (hne : line ≠ []) : Written [String.ofList line] line
  | lineFeed {lines : List String} {line rest : Text} (hline : '\n' ∉ line)
      (hend : line.getLast? ≠ some '\r') (hrest : Written lines rest) :
      Written (String.ofList line :: lines) (line ++ '\n' :: rest)
  | carriageReturn {lines : List String} {line rest : Text} (hline : '\n' ∉ line)
      (hrest : Written lines rest) :
      Written (String.ofList line :: lines) (line ++ '\r' :: '\n' :: rest)

/-- What ends no line is put in front of the line, backwards. -/
theorem go_append {u : Text} (hu : '\n' ∉ u) (line rest : Text) :
    linesOf.go line (u ++ rest) = linesOf.go (u.reverse ++ line) rest := by
  induction u generalizing line with
  | nil => rfl
  | cons c u ih =>
    rw [List.mem_cons, not_or] at hu
    rw [List.cons_append, linesOf.go, ih hu.2, List.reverse_cons, List.append_assoc,
      List.singleton_append]
    exact fun h => hu.1 h.symm

theorem go_last {line : Text} (hline : '\n' ∉ line) (hne : line ≠ []) :
    linesOf.go [] line = [String.ofList line] := by
  have hgo := go_append hline [] []
  rw [List.append_nil, List.append_nil] at hgo
  rw [hgo, linesOf.go, List.reverse_reverse, List.isEmpty_reverse, if_neg (by simpa using hne)]

theorem go_lineFeed {line : Text} (hline : '\n' ∉ line) (hend : line.getLast? ≠ some '\r')
    (rest : Text) :
    linesOf.go [] (line ++ '\n' :: rest) = String.ofList line :: linesOf.go [] rest := by
  rw [go_append hline, List.append_nil, linesOf.go.eq_3, List.reverse_reverse]
  intro front h
  rw [List.reverse_eq_cons_iff.mp h, List.getLast?_concat] at hend
  exact hend rfl

theorem go_carriageReturn {line : Text} (hline : '\n' ∉ line) (rest : Text) :
    linesOf.go [] (line ++ '\r' :: '\n' :: rest) = String.ofList line :: linesOf.go [] rest := by
  have hreturn : '\n' ∉ line ++ ['\r'] := by
    rw [List.mem_append, not_or]
    exact ⟨hline, by decide⟩
  have hgo := go_append hreturn [] ('\n' :: rest)
  rw [List.append_assoc, List.singleton_append] at hgo
  rw [hgo, List.reverse_concat, List.append_nil, linesOf.go.eq_2, List.reverse_reverse]

/-- The lines that are written are found, -/
theorem Written.go_eq {lines : List String} {input : Text} (h : Written lines input) :
    linesOf.go [] input = lines := by
  induction h with
  | nil => rfl
  | last hline hne => exact go_last hline hne
  | lineFeed hline hend hrest ih => rw [go_lineFeed hline hend, ih]
  | carriageReturn hline hrest ih => rw [go_carriageReturn hline, ih]

/-- and every text is lines that are written. The induction is on the length of the text:
what stands before the first line feed is a line, with or without a carriage return. -/
theorem exists_written (input : Text) : ∃ lines, Written lines input := by
  induction hn : input.length using Nat.strongRecOn generalizing input with
  | ind n ih =>
    by_cases hmem : '\n' ∈ input
    · obtain ⟨line, rest, rfl, hline⟩ := List.eq_append_cons_of_mem hmem
      obtain ⟨lines, hrest⟩ := ih rest.length (by simp at hn; omega) rest rfl
      by_cases hend : line.getLast? = some '\r'
      · obtain ⟨line, rfl⟩ := List.getLast?_eq_some_iff.mp hend
        rw [List.append_assoc, List.singleton_append]
        exact ⟨_, .carriageReturn (fun h => hline (List.mem_append_left _ h)) hrest⟩
      · exact ⟨_, .lineFeed hline hend hrest⟩
    · by_cases hne : input = []
      · exact ⟨[], hne ▸ .nil⟩
      · exact ⟨_, .last hmem hne⟩

/-- **The lines of an input are those that are written in it.** -/
theorem linesOf_eq_iff {lines : List String} {input : String} :
    linesOf input = lines ↔ Written lines input.toList := by
  constructor
  · rintro rfl
    obtain ⟨lines, h⟩ := exists_written input.toList
    rwa [linesOf, h.go_eq]
  · exact Written.go_eq

example : linesOf "1\r\n\n2\r" = ["1", "", "2\r"] := by decide

end Calculator

end Descent
