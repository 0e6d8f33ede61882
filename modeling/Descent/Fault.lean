/-!
# What can go wrong besides a failed match

A failed match is an ordinary reply. Two kinds of trouble are not: a `RunError`
ends a run before any parsing begins, and a `Fault` ends it in the middle,
because the library was used wrongly. Both are causes; the wording is in
`RunError.message` and `Fault.message` alone.
-/

namespace Descent

/-- Why a run ends before any parsing begins, or a part of a grammar cannot be built. -/
inductive RunError where
  /-- The start lies beyond the subject. -/
  | positionOutOfRange (position length : Nat)
  /-- The start lies inside a character. -/
  | notCharBoundary (position : Nat)
  /-- An options file cannot be read. -/
  | unreadable (reason : String)
  /-- The text of a pattern is not a regular expression. -/
  | pattern (reason : String)
  /-- The text of options is not what they are written as. -/
  | options (reason : String)
  deriving Repr, DecidableEq

/-- What is told to the user. -/
def RunError.message : RunError → String
  | .positionOutOfRange p n =>
    "start position " ++ toString p ++ " is out of range for a subject of length " ++ toString n
  | .notCharBoundary p => "start position " ++ toString p ++ " is not on a char boundary"
  | .unreadable reason => "failed to read options: " ++ reason
  | .pattern reason => "invalid pattern: " ++ reason
  | .options reason => "failed to parse options: " ++ reason

/-- A wrong use of the library. -/
inductive Fault where
  /-- A failure was given an empty message. -/
  | emptyMessage
  /-- A forward handle was used after the grammar it belongs to. -/
  | releasedGrammar
  /-- A pattern that was promised to be valid is not. -/
  | invalidPattern
  /-- A part of a success was read from a failure with that message. -/
  | readOfFailure (part message : String)
  /-- A part of a failure was read from a success that ends at that position. -/
  | readOfSuccess (part : String) (position : Nat)
  /-- A part of a grammar that is built during the run cannot be. -/
  | unusable (error : RunError)
  deriving Repr, DecidableEq

/-- What is told to the programmer. -/
def Fault.message : Fault → String
  | .emptyMessage => "error remapping produced an empty message"
  | .releasedGrammar => "recursive parser invoked after its grammar was dropped"
  | .invalidPattern => "invalid pattern"
  | .readOfFailure part message => part ++ " of a failed reply: " ++ message
  | .readOfSuccess part position =>
    part ++ " of a successful reply at position " ++ toString position
  | .unusable error => error.message

end Descent
