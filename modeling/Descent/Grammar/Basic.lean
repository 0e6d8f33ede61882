import Descent.Grammar.Expr
import Descent.Literal.Quoted

/-!
# Grammars as data

A grammar is a tree whose nodes are the constructors of parsers, with
expressions where a parser is given a function. Grammars mention environments
only by the changes that they make to them; a change may name a pattern by a
grammar of its own, so the three types are one family.

Messages are optional everywhere: a node without one has the usual message of
its kind.
-/

namespace Descent

/-- The escape functions that a string literal may be given. -/
inductive EscapeRule where
  | c
  | csharp
  | java
  | js
  /-- No escape is known. -/
  | nothing
  /-- A character stands for itself twice. -/
  | double
  /-- A character stands for no text. -/
  | drop
  deriving Repr, DecidableEq

/-- What an escape rule says of a character. -/
def EscapeRule.escape : EscapeRule → Escape
  | c => .c
  | csharp => .csharp
  | java => .java
  | js => .js
  | nothing => fun _ => none
  | double => fun x => some [x, x]
  | drop => fun _ => some []

/-- A language with string literals of its own. -/
inductive Language where
  | c
  | csharp
  | java
  | js
  deriving Repr, DecidableEq

/-- A grammar without parts. -/
inductive Leaf where
  | string (text : Expr) (message : Option String)
  | ignoreCase (text : Expr) (message : Option String)
  /-- A pattern that is promised to be valid. -/
  | pattern (text : Expr) (message : Option String)
  /-- A pattern that may be invalid. -/
  | tryPattern (text : Expr) (message : Option String)
  | atEnd (message : Option String)
  | real (message : Option String)
  | key (text : Expr) (message : Option String)
  | keyIgnoreCase (text : Expr) (message : Option String)
  /-- An integer literal; the format is given by the text of its options. -/
  | number (format : Option String)
  /-- A string literal; the format is given by the text of its options. -/
  | quoted (quote : Char) (rule : EscapeRule) (format : String) (message : Option String)
  | stringOf (language : Language) (message : Option String)
  | javaIdentifier (message : Option String)
  | succeed (e : Expr)
  | fail (message : Expr)
  | position
  | moveTo (target : Expr)
  /-- One decimal digit just at the position. -/
  | digit
  /-- Succeeds at any position whatever. -/
  | jump (target : Expr)
  /-- Fails about any position whatever. -/
  | failAt (message about : Expr)

mutual

/-- A grammar. -/
inductive Grammar where
  | leaf (l : Leaf)
  | map (p : Grammar) (e : Expr)
  /-- The second grammar is built where the first one succeeds. -/
  | bind (p : Grammar) (x : String) (q : Grammar)
  /-- Like `bind`, and combines both values. -/
  | bindMap (p : Grammar) (x : String) (q : Grammar) (e : Expr)
  | seqRight (p q : Grammar)
  | seqLeft (p q : Grammar)
  | choice (ps : List Grammar)
  | orElse (p q : Grammar)
  | withDefault (p : Grammar) (e : Expr)
  | optional (p : Grammar)
  | lookahead (p : Grammar)
  | notAhead (p : Grammar)
  | filter (p : Grammar) (e : Expr)
  | mapMessage (p : Grammar) (e : Expr)
  | mapMessageAt (p : Grammar) (message about : Expr)
  | withMessage (p : Grammar) (message : String)
  | foldSep (p d : Grammar) (e : Expr)
  | foldSepRight (p d : Grammar) (e : Expr)
  | foldMany1 (p : Grammar) (e : Expr)
  | foldMany (p : Grammar) (e otherwise : Expr)
  | inEnv (p : Grammar) (changes : List Change)
  | onText (p : Grammar) (subject : Expr)
  | letrec1 (x : String) (p : Grammar)
  | letrec2 (x y : String) (p q : Grammar)
  | letrec3 (x y z : String) (p q r : Grammar)
  | letrecMany (names : List String) (rules : List Grammar) (index : Nat)
  /-- The forward handle of a name. -/
  | ref (x : String)
  /-- Hands on a changed environment. -/
  | setEnv (changes : List Change)

/-- A change of an environment. -/
inductive Change where
  | withSkip (scanner : Scanner)
  | withFollow (scanner : Scanner)
  | withSubject (subject : String)
  | withoutSkip
  | bare

/-- Nothing, the text of a pattern, or a grammar in place of a pattern. -/
inductive Scanner where
  | absent
  | text (pattern : String)
  | grammar (p : Grammar)

end

/-- Yields the default value if the grammar fails. -/
def Grammar.orDefault (p : Grammar) : Grammar := p.withDefault (.lit .default)

/-- Any number of adjacent items; the default value when there is none. -/
def Grammar.foldManyOrDefault (p : Grammar) (e : Expr) : Grammar := p.foldMany e (.lit .default)

end Descent
