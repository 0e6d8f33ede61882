/-!
# Tables as text

The properties of characters are long tables. They are written as texts and
read once: as runs, each a length and a label (`"3Lu1Ll"` labels three code
points `Lu` and the next one `Ll`), or as numbers between blanks.
-/

namespace Descent

namespace Unicode

/-- The runs of a text: `count` and `label` are what was read of the present one. -/
def readRuns (count : Nat) (label : List Char) : List Char → List (Nat × String)
  | [] => if label.isEmpty then [] else [(count, String.ofList label.reverse)]
  | c :: cs =>
    if c.isDigit then
      if label.isEmpty then readRuns (10 * count + (c.toNat - '0'.toNat)) [] cs
      else (count, String.ofList label.reverse) :: readRuns (c.toNat - '0'.toNat) [] cs
    else readRuns count (c :: label) cs

/-- The first code point of each run, with the run's label. -/
def placeRuns (start : Nat) : List (Nat × String) → List (Nat × String)
  | [] => []
  | (count, label) :: runs => (start, label) :: placeRuns (start + count) runs

/-- The table of lines of runs that begin at a code point. -/
def runTable (start : Nat) (lines : List String) : Array (Nat × String) :=
  (placeRuns start (readRuns 0 [] (String.join lines).toList)).toArray

/-- The ranges of a table whose label satisfies a test; the last range ends with
the last code point. -/
def rangesOf (accept : α → Bool) : List (Nat × α) → List (Nat × Nat)
  | [] => []
  | [(start, label)] => if accept label then [(start, 0x10FFFF)] else []
  | (start, label) :: (next, label') :: table =>
    if accept label then (start, next - 1) :: rangesOf accept ((next, label') :: table)
    else rangesOf accept ((next, label') :: table)

/-- The last entry of an ascending table that does not begin after a number,
between two indices; `steps` bounds the number of halvings. -/
def searchTable (table : Array (Nat × α)) (n : Nat) : (steps lo hi : Nat) → Option (Nat × α)
  | 0, lo, _ => table[lo]?
  | steps + 1, lo, hi =>
    if hi ≤ lo + 1 then table[lo]?
    else
      let middle := (lo + hi) / 2
      match table[middle]? with
      | some entry => if entry.1 ≤ n then searchTable table n steps middle hi
        else searchTable table n steps lo middle
      | none => none

/-- The last entry of an ascending table that does not begin after a number. -/
def entryBelow (table : Array (Nat × α)) (n : Nat) : Option (Nat × α) :=
  match searchTable table n 32 0 table.size with
  | some entry => if entry.1 ≤ n then some entry else none
  | none => none

/-- The words of lines, between blanks. -/
def words (lines : List String) : List String := (String.join lines).splitOn " "

/-- The numbers of lines: digits, perhaps after a minus, between blanks. -/
def readNumbers (lines : List String) : List Int := (words lines).filterMap String.toInt?

/-- The numbers of lines in pairs: a first code point and a count. -/
def readRanges (lines : List String) : List (Nat × Nat) :=
  pairs ((words lines).filterMap String.toNat?)
where
  pairs : List Nat → List (Nat × Nat)
    | start :: count :: rest => (start, start + count - 1) :: pairs rest
    | _ => []

end Unicode

end Descent
