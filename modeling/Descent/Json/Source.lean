import Descent.Text

/-!
# Sources

What options are read from: a text, or the bytes of a file. A file may hold
bytes that belong to no character; they do no harm inside of what is skipped,
so a source keeps their places instead of refusing the file as a whole.

A reader takes a value from the beginning of a source and leaves the rest.
Readers below never look back, and never accept the same text in two ways.
-/

namespace Descent

namespace Json

/-- Characters in order, with a gap for each byte that belongs to none. -/
abbrev Source := List (Option Char)

/-- The source of a text has no gaps. -/
def Source.ofText (text : Text) : Source := text.map some

/-- The source of the bytes from an index on. -/
def Source.ofBytesFrom (bytes : ByteArray) (index : Nat) : Source :=
  if index < bytes.size then
    match bytes.utf8DecodeChar? index with
    | some c => some c :: ofBytesFrom bytes (index + c.utf8Size)
    | none => none :: ofBytesFrom bytes (index + 1)
  else []
termination_by bytes.size - index
decreasing_by
  · have := c.utf8Size_pos
    omega
  · omega

/-- The source of the bytes of a file. -/
def Source.ofBytes (bytes : ByteArray) : Source := ofBytesFrom bytes 0

/-- Takes a value from the beginning of a source. -/
abbrev Reader (α : Type) := Source → Option (α × Source)

/-- Whether a character may stand between the parts of a value. -/
def isBlank (c : Char) : Bool := c == ' ' || c == '\n' || c == '\t' || c == '\r'

/-- What is left after blanks. -/
def dropBlanks : Source → Source
  | some c :: s => if isBlank c then dropBlanks s else some c :: s
  | s => s

/-- What is left after exact characters. -/
def dropText? : Text → Source → Option Source
  | [], s => some s
  | c :: cs, some d :: s => if c = d then dropText? cs s else none
  | _ :: _, _ => none

/-- The digits at the beginning of a source. -/
def takeDigits : Source → Text × Source
  | some c :: s =>
    if c.isDigit then
      let (ds, rest) := takeDigits s
      (c :: ds, rest)
    else ([], some c :: s)
  | s => ([], s)

/-- The digits of a whole number; a zero stands alone. -/
def takeWhole? (s : Source) : Option (Text × Source) :=
  match takeDigits s with
  | ([], _) => none
  | ('0' :: _ :: _, _) => none
  | taken => some taken

theorem ofText_append (a b : Text) : Source.ofText (a ++ b) = Source.ofText a ++ Source.ofText b :=
  List.map_append

/-- Exact characters are dropped where they stand. -/
theorem dropText?_ofText_append (t : Text) (s : Source) :
    dropText? t (Source.ofText t ++ s) = some s := by
  induction t with
  | nil => cases s <;> rfl
  | cons c t ih => simpa [Source.ofText, dropText?] using ih

end Json

end Descent
