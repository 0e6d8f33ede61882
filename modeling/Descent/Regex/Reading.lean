import Descent.Regex.Syntax
import Descent.Unicode.Category

/-!
# Reading patterns

The reader goes once through the text of a pattern. `Cursor` is what it knows:
the text that is left, whether blanks and comments are passed over, and the
names of the groups so far. `readBranches` and `readClass` are the two
recursive readers, for what stands in a group and for what stands in brackets;
both spend a step for every character, so as many steps as there are characters
are enough.

Which texts are patterns is part of the contract of every grammar, since a text
that is none is an error before anything is parsed. So the corners are rules:
a bracket right after the opening one is a letter, a hyphen before the closing
one is a letter, a count needs a lower bound, and an escaped ASCII character
stands for itself unless it is a letter or a digit.
-/

namespace Descent

namespace Regex

/-- What is known while a pattern is read. -/
structure Cursor where
  rest : List Char
  extended : Bool
  names : List (List Char)
  deriving Repr, DecidableEq

/-- A step of reading a pattern. -/
abbrev Read := StateT Cursor (Except SyntaxError)

def isBlank (c : Char) : Bool := Unicode.whiteSpace.contains c

/-- The text after blanks and comments. -/
def dropBlanks (inComment : Bool) : List Char → List Char
  | [] => []
  | c :: cs =>
    if inComment then dropBlanks (c != '\n') cs
    else if isBlank c then dropBlanks false cs
    else if c = '#' then dropBlanks true cs
    else c :: cs

namespace Read

/-- The next character. -/
def peek : Read (Option Char) := do return (← get).rest.head?

/-- The character after the next one. -/
def peekSecond : Read (Option Char) := do return (← get).rest.tail.head?

def atEnd : Read Bool := do return (← get).rest.isEmpty

/-- Passes over one character. -/
def bump : Read Unit := modify fun s => { s with rest := s.rest.tail }

/-- Passes over blanks and comments, if they are to be. -/
def blanks : Read Unit := modify fun s =>
  if s.extended then { s with rest := dropBlanks false s.rest } else s

/-- Passes over one character, and blanks and comments after it. -/
def bumpBlanks : Read Unit := do
  bump
  blanks

/-- The next character, which there has to be. -/
def char (error : SyntaxError) : Read Char := do
  match ← peek with
  | some c => return c
  | none => throw error

/-- Passes over a text if it stands here. -/
def accept (text : List Char) : Read Bool := do
  let s ← get
  if s.rest.take text.length = text then
    set { s with rest := s.rest.drop text.length }
    return true
  else return false

/-- The next character that is no blank after the present one, as far as a reader
inside brackets looks ahead. -/
def peekPast : Read (Option Char) := do
  let s ← get
  let after := s.rest.tail
  return if s.extended then scan after.head? false after else after.head?
where
  scan (otherwise : Option Char) (inComment : Bool) : List Char → Option Char
    | [] => otherwise
    | c :: cs =>
      if isBlank c then scan otherwise inComment cs
      else if !inComment && c = '#' then scan otherwise true cs
      else some c

end Read

open Read

/-- Characters with a meaning of their own. -/
def isMetaChar (c : Char) : Bool :=
  ['\\', '.', '+', '*', '?', '(', ')', '|', '[', ']', '\x7b', '\x7d', '^', '$', '#', '&', '-',
    '~'].contains c

/-- Characters that stand for themselves after a backslash. -/
def isEscapable (c : Char) : Bool :=
  isMetaChar c || (c.toNat < 128 && !c.isAlphanum && c != '<' && c != '>')

def isHexChar (c : Char) : Bool :=
  c.isDigit || ('a' ≤ c && c ≤ 'f') || ('A' ≤ c && c ≤ 'F')

def hexValue (digits : List Char) : Nat :=
  digits.foldl (fun n c =>
    16 * n + (if c.isDigit then c.toNat - 48 else if 'a' ≤ c then c.toNat - 87 else c.toNat - 55)) 0

/-- The character of a number. -/
def codePoint (n : Nat) : Read Char :=
  if h : n.isValidChar then return Char.ofNatAux n h else throw .badCodePoint

/-- So many hexadecimal digits, the first of which is next. -/
def readHexDigits : Nat → Read (List Char)
  | 0 => return []
  | n + 1 => do
    let c ← char .endOfPattern
    if isHexChar c then
      bumpBlanks
      return c :: (← readHexDigits n)
    else throw .badCodePoint

/-- Hexadecimal digits up to the closing brace, which is passed over. -/
def readHexBraced : (steps : Nat) → Read (List Char)
  | 0 => throw .endOfPattern
  | steps + 1 => do
    let c ← char .endOfPattern
    if c = '\x7d' then
      bumpBlanks
      return []
    else if isHexChar c then
      bumpBlanks
      return c :: (← readHexBraced steps)
    else throw .badCodePoint

/-- A character by number; the letter that says how many digits is next. -/
def readHex : Read Letter := do
  let kind ← char .endOfPattern
  bumpBlanks
  let c ← char .endOfPattern
  if c = '\x7b' then
    bumpBlanks
    let digits ← readHexBraced ((← get).rest.length + 1)
    if digits.isEmpty then throw .badCodePoint
    return ⟨← codePoint (hexValue digits), false⟩
  else
    let digits ← readHexDigits (if kind = 'x' then 2 else if kind = 'u' then 4 else 8)
    return ⟨← codePoint (hexValue digits), kind = 'x'⟩

/-- The name of a property up to the closing brace, which is passed over. -/
def readPropertyName : (steps : Nat) → Read (List Char)
  | 0 => throw .endOfPattern
  | steps + 1 => do
    let c ← char .endOfPattern
    if c = '\x7d' then
      bump
      return []
    else
      bumpBlanks
      return c :: (← readPropertyName steps)

/-- A text cut at the first place where another one stands. -/
def cutAt (mark : List Char) : List Char → Option (List Char × List Char)
  | [] => none
  | c :: cs =>
    if (c :: cs).take mark.length = mark then some ([], (c :: cs).drop mark.length)
    else (cutAt mark cs).map fun (a, b) => (c :: a, b)

/-- What a property is asked by; the mark between name and value may negate. -/
def queryOf (name : List Char) : PropertyQuery :=
  match cutAt ['!', '='] name with
  | some (a, b) => .valued a b
  | none =>
    match cutAt [':'] name with
    | some (a, b) => .valued a b
    | none =>
      match cutAt ['='] name with
      | some (a, b) => .valued a b
      | none => .named name

/-- A property of characters; the letter that says whether it is negated is next. -/
def readProperty : Read (PropertyQuery × Bool) := do
  let negated := (← char .endOfPattern) = 'P'
  bumpBlanks
  let c ← char .endOfPattern
  if c = '\x7b' then
    bumpBlanks
    let name ← readPropertyName ((← get).rest.length + 1)
    return (queryOf name, negated)
  else if c = '\\' then throw .badEscape
  else
    bumpBlanks
    return (.named [c], negated)

/-- The letters of a special word boundary. -/
def readBoundaryName : (steps : Nat) → Read (List Char)
  | 0 => return []
  | steps + 1 => do
    match ← peek with
    | some c =>
      if c.isAlpha || c = '-' then
        bumpBlanks
        return c :: (← readBoundaryName steps)
      else return []
    | none => return []

/-- A special word boundary in braces, if one stands here; otherwise the braces are
a count and nothing is passed over. -/
def readBoundary : Read Assertion := do
  let start ← get
  bumpBlanks
  let c ← char .endOfPattern
  if c.isAlpha || c = '-' then
    let name ← readBoundaryName (start.rest.length + 1)
    if (← peek) != some '\x7d' then throw .badEscape
    bump
    if name = "start".toList then return .wordStart
    else if name = "end".toList then return .wordEnd
    else if name = "start-half".toList then return .wordStartHalf
    else if name = "end-half".toList then return .wordEndHalf
    else throw .badEscape
  else
    set start
    return .wordBoundary

/-- What a single letter stands for after a backslash. -/
def escapedControl : Char → Option Char
  | 'a' => some '\x07'
  | 'f' => some '\x0c'
  | 't' => some '\t'
  | 'n' => some '\n'
  | 'r' => some '\r'
  | 'v' => some '\x0b'
  | _ => none

/-- An escape; the backslash is next. -/
def readEscape : Read Syntax := do
  bump
  let c ← char .endOfPattern
  match c with
  | 'x' | 'u' | 'U' => return .letter (← readHex)
  | 'p' | 'P' =>
    let (query, negated) ← readProperty
    return .property query negated
  | 'd' | 'D' => bump; return .letterClass .digit (c = 'D')
  | 's' | 'S' => bump; return .letterClass .space (c = 'S')
  | 'w' | 'W' => bump; return .letterClass .word (c = 'W')
  | _ =>
    bump
    if isEscapable c then return .letter ⟨c, false⟩
    match escapedControl c with
    | some control => return .letter ⟨control, false⟩
    | none =>
      match c with
      | 'A' => return .assertion .startText
      | 'z' => return .assertion .endText
      | 'b' =>
        if (← peek) = some '\x7b' then return .assertion (← readBoundary)
        else return .assertion .wordBoundary
      | 'B' => return .assertion .notWordBoundary
      | '<' => return .assertion .wordStart
      | '>' => return .assertion .wordEnd
      | _ => throw .badEscape

/-! ## Classes in brackets -/

/-- One item of a class, not yet known to be the beginning of a range. -/
def readSetPrimitive : Read Syntax := do
  let c ← char .unclosedClass
  if c = '\\' then readEscape
  else
    bump
    return .letter ⟨c, false⟩

/-- What may stand in a class by itself. -/
def setItemOf : Syntax → Read SetItem
  | .letter l => return .letter l
  | .property query negated => return .property query negated
  | .letterClass cls negated => return .letterClass cls negated
  | _ => throw .badClassItem

/-- What may stand at the end of a range. -/
def rangeEndOf : Syntax → Read Letter
  | .letter l => return l
  | _ => throw .badClassRange

/-- An item or a range of a class. -/
def readSetRange : Read SetItem := do
  let first ← readSetPrimitive
  blanks
  let c ← char .unclosedClass
  let past ← peekPast
  if c != '-' || past = some ']' || past = some '-' then setItemOf first
  else
    bumpBlanks
    let last ← readSetPrimitive
    let lo ← rangeEndOf first
    let hi ← rangeEndOf last
    if hi.char < lo.char then throw .badClassRange
    return .range lo hi

def namedClasses : List (String × NamedClass) :=
  [("alnum", .alnum), ("alpha", .alpha), ("ascii", .ascii), ("blank", .blank), ("cntrl", .cntrl),
   ("digit", .digit), ("graph", .graph), ("lower", .lower), ("print", .print), ("punct", .punct),
   ("space", .space), ("upper", .upper), ("word", .word), ("xdigit", .xdigit)]

/-- A named class between brackets and colons, if one stands here. -/
def namedClass? (cs : List Char) : Option (SetItem × List Char) :=
  match cs with
  | '[' :: ':' :: cs =>
    let (negated, cs) := match cs with
      | '^' :: cs => (true, cs)
      | cs => (false, cs)
    let name := cs.takeWhile (· != ':')
    match cs.dropWhile (· != ':') with
    | ':' :: ']' :: rest =>
      (namedClasses.find? fun entry => entry.1.toList = name).map fun entry =>
        (.named entry.2 negated, rest)
    | _ => none
  | _ => none

/-- The hyphens at the beginning of a class, which are letters. -/
def readHyphens : (steps : Nat) → Read (List SetItem)
  | 0 => return []
  | steps + 1 => do
    if (← char .unclosedClass) = '-' then
      bumpBlanks
      return .letter ⟨'-', false⟩ :: (← readHyphens steps)
    else return []

/-- The opening bracket, whether the class is negated, and the letters that can
only stand at its beginning. -/
def readClassOpening : Read (Bool × List SetItem) := do
  bumpBlanks
  let negated := (← char .unclosedClass) = '^'
  if negated then bumpBlanks
  let hyphens ← readHyphens ((← get).rest.length + 1)
  if hyphens.isEmpty && (← char .unclosedClass) = ']' then
    bumpBlanks
    return (negated, [.letter ⟨']', false⟩])
  else return (negated, hyphens)

/-- Items of a class, in reverse, as one. -/
def itemOf : List SetItem → SetItem
  | [item] => item
  | items => .union items.reverse

/-- The items so far joined to the operation that waits for them. -/
def closeOp (waiting : Option (SetOp × SetExpr)) (items : List SetItem) : SetExpr :=
  match waiting with
  | none => .item (itemOf items)
  | some (op, left) => .op op left (.item (itemOf items))

/-- The rest of a class: `items` were read since the last operation, in reverse,
and `waiting` is that operation with what stands before it. -/
def readClass : (steps : Nat) → (waiting : Option (SetOp × SetExpr)) → List SetItem → Read SetExpr
  | 0, _, _ => throw .unclosedClass
  | steps + 1, waiting, items => do
    blanks
    let c ← char .unclosedClass
    let second ← peekSecond
    if c = '[' then
      match namedClass? (← get).rest with
      | some (item, rest) =>
        modify fun s => { s with rest }
        readClass steps waiting (item :: items)
      | none =>
        let (negated, opening) ← readClassOpening
        let inner ← readClass steps none opening.reverse
        readClass steps waiting (.bracketed negated inner :: items)
    else if c = ']' then
      bump
      return closeOp waiting items
    else if c = '&' && second = some '&' then
      bump
      bump
      readClass steps (some (.inter, closeOp waiting items)) []
    else if c = '-' && second = some '-' then
      bump
      bump
      readClass steps (some (.diff, closeOp waiting items)) []
    else if c = '~' && second = some '~' then
      bump
      bump
      readClass steps (some (.symmDiff, closeOp waiting items)) []
    else
      let item ← readSetRange
      readClass steps waiting (item :: items)

/-- A class; its opening bracket is next. -/
def readBracketed : Read Syntax := do
  let (negated, opening) ← readClassOpening
  let set ← readClass ((← get).rest.length + 1) none opening.reverse
  return .bracketed negated set

/-! ## Groups and repetitions -/

/-- The letters of a group name up to the closing mark, which is passed over. -/
def readGroupName (first : Bool) : (steps : Nat) → Read (List Char)
  | 0 => throw .badGroupName
  | steps + 1 => do
    let c ← char .badGroupName
    if c = '>' then
      bump
      return []
    else if c = '_' || Unicode.alphabetic.contains c
        || (!first && (c = '.' || c = '[' || c = ']' || (Unicode.Category.ofChar c).isNumber)) then
      bump
      return c :: (← readGroupName false steps)
    else throw .badGroupName

def flagOf : Char → Option Flag
  | 'i' => some .ignoreCase
  | 'm' => some .multiLine
  | 's' => some .dotAll
  | 'U' => some .swapGreed
  | 'u' => some .unicode
  | 'R' => some .crlf
  | 'x' => some .extended
  | _ => none

/-- The flags up to a colon or parenthesis. A hyphen, which there is once at most
and not at the end, clears the flags after it; no flag is named twice. -/
def readFlags : (steps : Nat) → (on : Bool) → List FlagChange → Read (List FlagChange)
  | 0, _, _ => throw .badFlag
  | steps + 1, on, changes => do
    let c ← char .badFlag
    if c = ':' || c = ')' then return changes
    else if c = '-' then
      if !on then throw .badFlag
      bump
      let next ← char .badFlag
      if next = ':' || next = ')' then throw .badFlag
      readFlags steps false changes
    else
      match flagOf c with
      | none => throw .badFlag
      | some flag =>
        if changes.any (·.flag = flag) then throw .badFlag
        bump
        readFlags steps on (changes ++ [⟨flag, on⟩])

/-- What a parenthesis opens. -/
inductive Opening where
  | flags (changes : List FlagChange)
  | capture
  | group (changes : List FlagChange)

/-- The beginning of a group; its parenthesis is next. -/
def readOpening : Read Opening := do
  bumpBlanks
  for mark in ["?=", "?!", "?<=", "?<!"] do
    if ← accept mark.toList then throw .lookaround
  if ← (accept ['?', 'P', '<'] <||> accept ['?', '<']) then
    let name ← readGroupName true ((← get).rest.length + 1)
    if name.isEmpty then throw .badGroupName
    if (← get).names.contains name then throw .duplicateGroupName
    modify fun s => { s with names := name :: s.names }
    return .capture
  else if ← accept ['?'] then
    if ← atEnd then throw .unclosedGroup
    let changes ← readFlags ((← get).rest.length + 1) true []
    let c ← char .badFlag
    bump
    if c = ')' then
      if changes.isEmpty then throw .nothingToRepeat
      return .flags changes
    else return .group changes
  else return .capture

/-- Whether blanks are passed over after some changes of flags. -/
def extendedAfter (before : Bool) (changes : List FlagChange) : Bool :=
  match changes.find? (·.flag = .extended) with
  | some change => change.on
  | none => before

/-- The parts so far without the last one, which is to be repeated. -/
def popRepeated : List Syntax → Read (Syntax × List Syntax)
  | [] => throw .nothingToRepeat
  | .empty :: _ => throw .nothingToRepeat
  | .flags _ :: _ => throw .nothingToRepeat
  | part :: parts => return (part, parts)

/-- Whether the mark of a lazy repetition is here; it is passed over. -/
def readLazy : Read Bool := do
  if (← peek) = some '?' then
    bump
    return true
  else return false

/-- The digits of a count, in any of which blanks may stand if they are passed over. -/
def readCountDigits : (steps : Nat) → Read (List Char)
  | 0 => return []
  | steps + 1 => do
    match ← peek with
    | some c =>
      if c.isDigit then
        bumpBlanks
        return c :: (← readCountDigits steps)
      else return []
    | none => return []

/-- A count of a repetition; none when there are no digits. Blanks around it are
passed over in any case. -/
def readCount : Read (Option Nat) := do
  modify fun s => { s with rest := s.rest.dropWhile isBlank }
  let digits ← readCountDigits ((← get).rest.length + 1)
  modify fun s =>
    let rest := s.rest.dropWhile isBlank
    { s with rest := if s.extended then dropBlanks false rest else rest }
  if digits.isEmpty then return none
  let n := digits.foldl (fun n c => 10 * n + (c.toNat - 48)) 0
  if n < 0x100000000 then return some n else throw .badCount

/-- A count that there has to be. -/
def need : Option Nat → Read Nat
  | some n => return n
  | none => throw .badCount

/-- A counted repetition of a part; the brace is next. -/
def readCounted (part : Syntax) : Read Syntax := do
  bumpBlanks
  if ← atEnd then throw .badCount
  let first ← readCount
  let (least, most) ←
    if (← char .badCount) = ',' then
      bumpBlanks
      if (← char .badCount) = '\x7d' then pure (← need first, none)
      else
        let least ← need first
        let most ← need (← readCount)
        pure (least, some most)
    else
      let n ← need first
      pure (n, some n)
  if (← char .badCount) != '\x7d' then throw .badCount
  bumpBlanks
  let greedy := !(← readLazy)
  if most.any (· < least) then throw .badCountRange
  return .repetition part least most greedy

/-- Alternatives so far, and the parts of the last one in reverse, as one. -/
def branchesOf (branches : List Syntax) (parts : List Syntax) : Syntax :=
  match branches with
  | [] => .ofParts parts.reverse
  | _ => .alternation (branches.reverse ++ [.ofParts parts.reverse])

/-- The alternatives up to the end of the group they stand in: `branches` and
`parts` were read already, both in reverse. -/
def readBranches : (steps : Nat) → (branches parts : List Syntax) → Read Syntax
  | 0, _, _ => throw .tooLarge
  | steps + 1, branches, parts => do
    blanks
    match ← peek with
    | none | some ')' => return branchesOf branches parts
    | some '|' =>
      bump
      readBranches steps (.ofParts parts.reverse :: branches) []
    | some '(' =>
      let extended := (← get).extended
      match ← readOpening with
      | .flags changes =>
        modify fun s => { s with extended := extendedAfter extended changes }
        readBranches steps branches (.flags changes :: parts)
      | opening =>
        let part ← match opening with
          | .group changes => do
            modify fun s => { s with extended := extendedAfter extended changes }
            pure (.group changes (← readBranches steps [] []))
          | _ => do pure (.capture (← readBranches steps [] []))
        if ← atEnd then throw .unclosedGroup
        bump
        modify fun s => { s with extended := extended }
        readBranches steps branches (part :: parts)
    | some '[' =>
      let part ← readBracketed
      readBranches steps branches (part :: parts)
    | some '\x7b' =>
      let (part, parts) ← popRepeated parts
      let part ← readCounted part
      readBranches steps branches (part :: parts)
    | some '\\' =>
      let part ← readEscape
      readBranches steps branches (part :: parts)
    | some c =>
      if c = '?' || c = '*' || c = '+' then
        let (part, parts) ← popRepeated parts
        bump
        let greedy := !(← readLazy)
        let part := .repetition part (if c = '+' then 1 else 0) (if c = '?' then some 1 else none)
          greedy
        readBranches steps branches (part :: parts)
      else
        bump
        let part := match c with
          | '.' => .anyChar
          | '^' => .assertion .startLine
          | '$' => .assertion .endLine
          | _ => .letter ⟨c, false⟩
        readBranches steps branches (part :: parts)

/-- How deep a pattern may be nested. -/
def maxDepth : Nat := 250

/-- **The pattern that a text is.** -/
def Syntax.read (text : List Char) : Except SyntaxError Syntax := do
  let (syn, cursor) ← (readBranches (text.length + 1) [] []).run ⟨text, false, []⟩
  if !cursor.rest.isEmpty then throw .unopenedGroup
  if maxDepth < syn.depth then throw .tooDeep
  return syn

end Regex

end Descent
