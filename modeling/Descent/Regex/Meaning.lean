import Descent.Regex.Property
import Descent.Regex.Term

/-!
# From writing to meaning

Applies the flags of a pattern. Flags that are set inside a group hold to the
end of that group, across its alternatives, and are given back with it. Under
the flag for case a set is closed under simple folding before it is negated, so
a negated class rejects both cases.

Without the Unicode flag the classes are those of ASCII, and what would match a
part of a character is refused.
-/

namespace Descent

namespace Regex

/-- The flags in force. -/
structure Flags where
  ignoreCase : Bool
  multiLine : Bool
  dotAll : Bool
  swapGreed : Bool
  unicode : Bool
  crlf : Bool
  deriving Repr, DecidableEq

/-- The flags at the beginning. -/
def Flags.initial : Flags := ⟨false, false, false, false, true, false⟩

/-- The flags after a change. -/
def Flags.change (flags : Flags) (change : FlagChange) : Flags :=
  match change.flag with
  | .ignoreCase => { flags with ignoreCase := change.on }
  | .multiLine => { flags with multiLine := change.on }
  | .dotAll => { flags with dotAll := change.on }
  | .swapGreed => { flags with swapGreed := change.on }
  | .unicode => { flags with unicode := change.on }
  | .crlf => { flags with crlf := change.on }
  | .extended => flags

/-- The flags after some changes. -/
def Flags.changes (flags : Flags) (changes : List FlagChange) : Flags :=
  changes.foldl Flags.change flags

def asciiDigit : CharSet := ⟨[(48, 57)]⟩

def asciiSpace : CharSet := ⟨[(9, 13), (32, 32)]⟩

def asciiWord : CharSet := ⟨[(48, 57), (65, 90), (95, 95), (97, 122)]⟩

/-- The members of a named class. -/
def NamedClass.charSet : NamedClass → CharSet
  | .alnum => ⟨[(48, 57), (65, 90), (97, 122)]⟩
  | .alpha => ⟨[(65, 90), (97, 122)]⟩
  | .ascii => ⟨[(0, 127)]⟩
  | .blank => ⟨[(9, 9), (32, 32)]⟩
  | .cntrl => ⟨[(0, 31), (127, 127)]⟩
  | .digit => asciiDigit
  | .graph => ⟨[(33, 126)]⟩
  | .lower => ⟨[(97, 122)]⟩
  | .print => ⟨[(32, 126)]⟩
  | .punct => ⟨[(33, 47), (58, 64), (91, 96), (123, 126)]⟩
  | .space => asciiSpace
  | .upper => ⟨[(65, 90)]⟩
  | .word => asciiWord
  | .xdigit => ⟨[(48, 57), (65, 70), (97, 102)]⟩

/-- The members of a class under a letter. -/
def LetterClass.charSet (unicode : Bool) : LetterClass → CharSet
  | .digit => if unicode then Unicode.decimalDigits else asciiDigit
  | .space => if unicode then Unicode.whiteSpace else asciiSpace
  | .word => if unicode then Unicode.wordChars else asciiWord

namespace Flags

/-- The set closed under the case that the flags ignore. -/
def fold (flags : Flags) (s : CharSet) : CharSet :=
  if flags.ignoreCase then
    if flags.unicode then Unicode.foldClosure s else Unicode.asciiFoldClosure s
  else s

/-- A set folded, then negated if it is to be. -/
def foldNegate (flags : Flags) (negated : Bool) (s : CharSet) : CharSet :=
  if negated then (flags.fold s).complement else flags.fold s

/-- A set that may only be used without the Unicode flag when it is one of ASCII. -/
def whole (flags : Flags) (s : CharSet) : Except SyntaxError CharSet :=
  if flags.unicode || s.isAscii then .ok s else .error .notUnicode

/-- The character of a letter. Without the Unicode flag a byte that is no ASCII
character would be a part of one. -/
def char (flags : Flags) (l : Letter) : Except SyntaxError Char :=
  if !flags.unicode && l.byte && 127 < l.char.toNat then .error .notUnicode else .ok l.char

/-- The character of a letter in a class. -/
def classChar (flags : Flags) (l : Letter) : Except SyntaxError Char :=
  if !flags.unicode && 127 < l.char.toNat then .error .notUnicode else .ok l.char

/-- The members of a property. -/
def property (flags : Flags) (query : PropertyQuery) (negated : Bool) :
    Except SyntaxError CharSet :=
  if flags.unicode then
    match query.charSet? with
    | some s => .ok (flags.foldNegate negated s)
    | none => .error .unknownProperty
  else .error .notUnicode

/-- The members of a class under a letter. These classes hold both cases anyway. -/
def letterClass (flags : Flags) (cls : LetterClass) (negated : Bool) :
    Except SyntaxError CharSet :=
  let s := cls.charSet flags.unicode
  flags.whole (if negated then s.complement else s)

end Flags

mutual

/-- The members of a part of a class. -/
def SetItem.charSet (flags : Flags) : SetItem → Except SyntaxError CharSet
  | .letter l => do return CharSet.single (← flags.classChar l)
  | .range lo hi => do
    return ⟨[((← flags.classChar lo).toNat, (← flags.classChar hi).toNat)]⟩
  | .named cls negated => flags.whole (flags.foldNegate negated cls.charSet)
  | .property query negated => flags.property query negated
  | .letterClass cls negated => flags.letterClass cls negated
  | .bracketed negated set => do flags.whole (flags.foldNegate negated (← set.charSet flags))
  | .union items => SetItem.charSets flags items

/-- The members of what stands between brackets. -/
def SetExpr.charSet (flags : Flags) : SetExpr → Except SyntaxError CharSet
  | .item item => item.charSet flags
  | .op op left right => do
    let s := flags.fold (← left.charSet flags)
    let t := flags.fold (← right.charSet flags)
    return match op with
      | .inter => s.inter t
      | .diff => s.diff t
      | .symmDiff => s.symmDiff t

def SetItem.charSets (flags : Flags) : List SetItem → Except SyntaxError CharSet
  | [] => .ok CharSet.empty
  | item :: items => do return (← item.charSet flags).union (← SetItem.charSets flags items)

end

/-- A letter up to the case that the flags ignore. -/
def Flags.letter (flags : Flags) (l : Letter) : Except SyntaxError Term := do
  let c ← flags.char l
  if !flags.ignoreCase then return .literal [c]
  else if flags.unicode then
    return if Unicode.hasFold c then Term.setOf (Unicode.foldClosure (CharSet.single c))
      else .literal [c]
  else if 127 < c.toNat then throw .notUnicode
  else return Term.setOf (Unicode.asciiFoldClosure (CharSet.single c))

/-- Any character, as far as the flags let it. -/
def Flags.anyChar (flags : Flags) : Except SyntaxError Term := do
  if !flags.unicode then throw .notUnicode
  return .set (if flags.dotAll then CharSet.all
    else if flags.crlf then (CharSet.ofText ['\n', '\r']).complement
    else (CharSet.ofText ['\n']).complement)

/-- What an assertion looks at. -/
def Flags.look (flags : Flags) : Assertion → Look
  | .startLine => if flags.multiLine then (if flags.crlf then .startLineCrlf else .startLine)
    else .start
  | .endLine => if flags.multiLine then (if flags.crlf then .stopLineCrlf else .stopLine)
    else .stop
  | .startText => .start
  | .endText => .stop
  | .wordBoundary => .word flags.unicode
  | .notWordBoundary => .notWord flags.unicode
  | .wordStart => .wordStart flags.unicode
  | .wordEnd => .wordStop flags.unicode
  | .wordStartHalf => .wordStartHalf flags.unicode
  | .wordEndHalf => .wordStopHalf flags.unicode

mutual

/-- The meaning of a pattern under flags, and the flags after it. -/
def Syntax.toTerm (flags : Flags) : Syntax → Except SyntaxError (Term × Flags)
  | .empty => .ok (.empty, flags)
  | .flags changes => .ok (.empty, flags.changes changes)
  | .letter l => do return (← flags.letter l, flags)
  | .anyChar => do return (← flags.anyChar, flags)
  | .assertion a => .ok (.look (flags.look a), flags)
  | .property query negated => do return (Term.setOf (← flags.property query negated), flags)
  | .letterClass cls negated => do return (Term.setOf (← flags.letterClass cls negated), flags)
  | .bracketed negated set => do
    let s ← flags.whole (flags.foldNegate negated (← set.charSet flags))
    return (Term.setOf s, flags)
  | .repetition sub least most greedy => do
    let (t, flags) ← sub.toTerm flags
    return (Term.repetitionOf t least most (greedy != flags.swapGreed), flags)
  | .capture sub => do
    let (t, _) ← sub.toTerm flags
    return (.capture t, flags)
  | .group changes sub => do
    let (t, _) ← sub.toTerm (flags.changes changes)
    return (t, flags)
  | .concat parts => do
    let (ts, flags) ← Syntax.toTerms flags parts
    return (Term.concatOf ts, flags)
  | .alternation branches => do
    let (ts, flags) ← Syntax.toTerms flags branches
    return (Term.alternationOf ts, flags)

def Syntax.toTerms (flags : Flags) : List Syntax → Except SyntaxError (List Term × Flags)
  | [] => .ok ([], flags)
  | part :: parts => do
    let (t, flags) ← part.toTerm flags
    let (ts, flags) ← Syntax.toTerms flags parts
    return (t :: ts, flags)

end

end Regex

end Descent
