/-!
# The syntax of patterns

Patterns as they are written: what was read, before it is known what it means.
Flags are part of the syntax and take effect later, with one exception: whether
blanks and comments are passed over decides how the text itself is read.
-/

namespace Descent

namespace Regex

/-- Why a text is not a pattern. -/
inductive SyntaxError where
  | endOfPattern
  | unclosedGroup
  | unopenedGroup
  | lookaround
  | badGroupName
  | duplicateGroupName
  | badFlag
  | nothingToRepeat
  | badCount
  | badCountRange
  | badEscape
  | badCodePoint
  | unclosedClass
  | badClassRange
  | badClassItem
  | unknownProperty
  | notUnicode
  | tooDeep
  | tooLarge
  deriving Repr, DecidableEq

/-- What is told about the text. -/
def SyntaxError.message : SyntaxError → String
  | endOfPattern => "incomplete at the end of the pattern"
  | unclosedGroup => "unclosed group"
  | unopenedGroup => "unopened group"
  | lookaround => "look-around is not supported"
  | badGroupName => "invalid group name"
  | duplicateGroupName => "duplicate group name"
  | badFlag => "invalid flags"
  | nothingToRepeat => "repetition operator missing expression"
  | badCount => "invalid repetition count"
  | badCountRange => "repetition counts out of order"
  | badEscape => "unrecognized escape sequence"
  | badCodePoint => "invalid code point"
  | unclosedClass => "unclosed character class"
  | badClassRange => "invalid character class range"
  | badClassItem => "invalid escape in a character class"
  | unknownProperty => "unknown property of characters"
  | notUnicode => "only possible with the Unicode flag"
  | tooDeep => "nested too deeply"
  | tooLarge => "pattern too large"

/-- A flag of a pattern. -/
inductive Flag where
  | ignoreCase
  | multiLine
  | dotAll
  | swapGreed
  | unicode
  | crlf
  | extended
  deriving Repr, DecidableEq

/-- A flag that is set or cleared. -/
structure FlagChange where
  flag : Flag
  on : Bool
  deriving Repr, DecidableEq

/-- What is asserted of a place in the text. -/
inductive Assertion where
  | startLine
  | endLine
  | startText
  | endText
  | wordBoundary
  | notWordBoundary
  | wordStart
  | wordEnd
  | wordStartHalf
  | wordEndHalf
  deriving Repr, DecidableEq

/-- A class under a letter. -/
inductive LetterClass where
  | digit
  | space
  | word
  deriving Repr, DecidableEq

/-- A class of ASCII under a name. -/
inductive NamedClass where
  | alnum | alpha | ascii | blank | cntrl | digit | graph | lower | print | punct | space | upper
  | word | xdigit
  deriving Repr, DecidableEq

/-- A property of characters, by a name of its own or as a property with a value. -/
inductive PropertyQuery where
  | named (name : List Char)
  | valued (name value : List Char)
  deriving Repr, DecidableEq

/-- An operation between the sets of a class. -/
inductive SetOp where
  | inter
  | diff
  | symmDiff
  deriving Repr, DecidableEq

/-- A character as it was written; `byte` when it was written as the number of a byte. -/
structure Letter where
  char : Char
  byte : Bool
  deriving Repr, DecidableEq

mutual

/-- A part of a class between brackets. -/
inductive SetItem where
  | letter (letter : Letter)
  | range (lo hi : Letter)
  | named (cls : NamedClass) (negated : Bool)
  | property (query : PropertyQuery) (negated : Bool)
  | letterClass (cls : LetterClass) (negated : Bool)
  | bracketed (negated : Bool) (set : SetExpr)
  | union (items : List SetItem)

/-- The contents of brackets: items, or operations between them. -/
inductive SetExpr where
  | item (item : SetItem)
  | op (op : SetOp) (left right : SetExpr)

end

/-- A pattern as it is written. -/
inductive Syntax where
  | empty
  | flags (changes : List FlagChange)
  | letter (letter : Letter)
  | anyChar
  | assertion (assertion : Assertion)
  | property (query : PropertyQuery) (negated : Bool)
  | letterClass (cls : LetterClass) (negated : Bool)
  | bracketed (negated : Bool) (set : SetExpr)
  | repetition (sub : Syntax) (least : Nat) (most : Option Nat) (greedy : Bool)
  | capture (sub : Syntax)
  | group (changes : List FlagChange) (sub : Syntax)
  | concat (parts : List Syntax)
  | alternation (branches : List Syntax)

/-- Parts in a row; one part stands for itself. -/
def Syntax.ofParts : List Syntax → Syntax
  | [] => .empty
  | [part] => part
  | parts => .concat parts

mutual

/-- How deep a part of a class is nested. -/
def SetItem.depth : SetItem → Nat
  | .bracketed _ set => set.depth + 1
  | .union items => SetItem.depths items + 1
  | _ => 0

def SetExpr.depth : SetExpr → Nat
  | .item item => item.depth
  | .op _ left right => max left.depth right.depth + 1

def SetItem.depths : List SetItem → Nat
  | [] => 0
  | item :: items => max item.depth (SetItem.depths items)

end

mutual

/-- How deep a pattern is nested. -/
def Syntax.depth : Syntax → Nat
  | .bracketed _ set => set.depth + 1
  | .repetition sub _ _ _ => sub.depth + 1
  | .capture sub => sub.depth + 1
  | .group _ sub => sub.depth + 1
  | .concat parts => Syntax.depths parts + 1
  | .alternation branches => Syntax.depths branches + 1
  | _ => 0

def Syntax.depths : List Syntax → Nat
  | [] => 0
  | part :: parts => max part.depth (Syntax.depths parts)

end

end Regex

end Descent
