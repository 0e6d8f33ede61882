import Descent.Parser.Basic
import Descent.Unicode.Case

/-!
# Tokens

Parsers that match text themselves. A token first skips, then looks at the text
that is left; if it does not match there, the failure is about the position
where the token was called, so skipped text is never committed to by a failure.

**One shape for all of them.** `Parser.token` takes a reader, a function from
the text that is left to a `Match`, and everything that reads text is this
parser at some reader: exact text, text up to case, the maximal runs of
literals, and compiled patterns. A reader sees nothing of what stands before
the position, and it answers with text rather than with offsets, so a token can
only end where a character ends.
-/

namespace Descent

/-- What a reader found: text it passed over and the text it matched. -/
structure Match where
  passed : Text
  text : Text
  deriving Repr, DecidableEq

/-- Text matched where the reader began. -/
def Match.here (text : Text) : Match := ⟨[], text⟩

/-- How many bytes after the beginning the match ends. -/
def Match.size (m : Match) : Nat := Text.size m.passed + Text.size m.text

@[simp] theorem Match.size_here (text : Text) : (Match.here text).size = Text.size text :=
  Nat.zero_add _

/-- A function that looks for a match in the text that is left. -/
abbrev Reader := Text → Option Match

namespace Reader

/-- Exactly this text. -/
def exact (expected : Text) : Reader := fun rest =>
  (Text.dropExact? expected rest).map fun _ => Match.here expected

/-- As many characters, with the same small letters. -/
def sameLetters (expected : Text) : Reader := fun rest =>
  let candidate := rest.take expected.length
  if candidate.length = expected.length ∧ Unicode.lower candidate = Unicode.lower expected
  then some (Match.here candidate) else none

/-- The longest run of characters that satisfy a test, at least one. -/
def run1 (accept : Char → Bool) : Reader := fun rest =>
  match rest.takeWhile accept with
  | [] => none
  | text => some (Match.here text)

end Reader

namespace Parser

/-- Skips, then matches what a reader finds. -/
def token (read : Reader) (message : String) : Parser String := ⟨fun env position => do
  let start ← env.skipFrom position
  match (env.from? start).bind read with
  | some m => pure (.ok env (start + m.size) (String.ofList m.text))
  | none => pure (.fail message (some position))⟩

/-- Matches exactly a text, with a message of one's own. -/
def stringWith (expected message : String) : Parser String :=
  token (Reader.exact expected.toList) message

/-- **Matches exactly a text.** -/
def string (expected : String) : Parser String :=
  stringWith expected ("Does not match " ++ expected)

/-- Matches a text up to case, with a message of one's own. -/
def ignoreCaseWith (expected message : String) : Parser String :=
  token (Reader.sameLetters expected.toList) message

/-- **Matches a text up to case** and yields it as it stands in the subject. -/
def ignoreCase (expected : String) : Parser String :=
  ignoreCaseWith expected ("Does not match " ++ expected)

/-- Succeeds at the end, with a message of one's own. -/
def endWith (message : String) : Parser Unit := ⟨fun env position => do
  let start ← env.skipFrom position
  if env.length ≤ start then pure (.ok env start ())
  else pure (.fail message (some position))⟩

/-- **Succeeds when nothing is left** but what is skipped. -/
def atEnd : Parser Unit := endWith "Not reached to end of parsing"

/-- **Whether a keyword may end at a position**: there is no rule about it, or
the subject ends, or something is skipped, or the rule's scan matches. -/
def mayEndAt (env : Env) (position : Nat) : Eval Bool :=
  match env.follow with
  | none => pure true
  | some follow =>
    if env.length ≤ position then pure true
    else do
      if position < (← env.skipFrom position) then pure true
      else pure (← follow env.subject position).isSome

/-- A token that has to end where a keyword may. The failure is about the end of
the token when only that is wrong. -/
def bounded (p : Parser String) (message : String) : Parser String := ⟨fun env position => do
  match ← p.run env position with
  | .fail .. => pure (.fail message (some position))
  | .ok env stop text =>
    if ← mayEndAt env stop then pure (.ok env stop text)
    else
      Eval.emit (.keywordContinues stop text)
      pure (.fail message (some stop))⟩

/-- Matches a keyword, with a message of one's own. -/
def keyWith (keyword message : String) : Parser String := bounded (string keyword) message

/-- **Matches a keyword**, unless a longer word stands there. -/
def key (keyword : String) : Parser String :=
  keyWith keyword ("Does not match keyword " ++ keyword)

/-- Matches a keyword up to case, with a message of one's own. -/
def keyIgnoreCaseWith (keyword message : String) : Parser String :=
  bounded (ignoreCase keyword) message

/-- **Matches a keyword up to case**, unless a longer word stands there. -/
def keyIgnoreCase (keyword : String) : Parser String :=
  keyIgnoreCaseWith keyword ("Does not match keyword " ++ keyword)

end Parser

end Descent
