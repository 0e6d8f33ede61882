import Descent.Decimal.Reading
import Descent.Grammar.Basic
import Descent.Literal.Identifier
import Descent.Parser.Recursion
import Descent.Parser.Run

/-!
# Building grammars

`Grammar.build` makes the parser of a grammar. It works in two stages. The first
one has no forward handles yet; it compiles patterns, reads formats and
evaluates the expressions that stand outside of functions, and whatever is wrong
with these is found now. The second one takes the forward handles and can no
longer fail. A rule of a recursive grammar is built when the grammar is tied and
takes new handles at every call, and of all that only the second stage is done
again.

**Names.** A recursive grammar is named by its place in the tree and by the scope
that it is built in. What a `bind` builds during a run is in a scope of its own,
which ends with that parser; a parser that goes into an environment is in a scope
that does not end, since nothing says how long the environment is kept.
-/

namespace Descent

/-- Forward handles by name, the innermost first. -/
abbrev Handles := List (String × Parser Value)

/-- What is to become a parser as soon as there are handles. -/
abbrev Built := Except Fault (Handles → Parser Value)

/-- A position as a value. -/
def Value.ofPosition (position : Nat) : Value := int (Int64.ofNat position)

/-- A value as a position: negative numbers are the largest positions. -/
def Value.toPosition (v : Value) : Nat := v.toInt64.toUInt64.toNat

namespace Parser

/-- A pattern that is promised to be valid. -/
def promisedPattern (pattern message : String) : Except Fault (Parser String) :=
  match patternWith pattern message with
  | .ok p => .ok p
  | .error _ => .error .invalidPattern

/-- One decimal digit just at the position. -/
def digit : Parser Value := ⟨fun env position =>
  match env.from? position with
  | some (c :: _) =>
    if c.isDigit then pure (.ok env (position + 1) (.ofPosition (c.toNat - '0'.toNat)))
    else pure (.fail "digit expected" (some position))
  | _ => pure (.fail "digit expected" (some position))⟩

/-- Succeeds at any position whatever. -/
def jump (target : Nat) : Parser Value := ⟨fun env _ => pure (.ok env target .unit)⟩

/-- Fails about any position whatever. -/
def failAt (message : String) (about : Nat) : Parser Value :=
  ⟨fun _ _ => pure (.fail message (some about))⟩

/-- Hands on a changed environment. -/
def setEnv (change : Env → Eval Env) : Parser Value := ⟨fun env position => do
  pure (.ok (← change env) position .unit)⟩

end Parser

namespace Leaf

/-- A parser of texts as a parser of values. -/
def texts (p : Parser String) : Except Fault (Parser Value) := pure (p.map .str)

/-- **The parser of a grammar without parts.** -/
def build (vars : Bindings) : Leaf → Except Fault (Parser Value)
  | string e message =>
    let text := e.evalText vars
    texts (match message with
      | none => .string text
      | some message => .stringWith text message)
  | ignoreCase e message =>
    let text := e.evalText vars
    texts (match message with
      | none => .ignoreCase text
      | some message => .ignoreCaseWith text message)
  | pattern e message => do
    let text := e.evalText vars
    let p ← Parser.promisedPattern text (message.getD ("Does not match pattern " ++ text))
    texts p
  | tryPattern e message =>
    let text := e.evalText vars
    match Parser.patternWith text (message.getD ("Does not match pattern " ++ text)) with
    | .ok p => texts p
    | .error e => .error (.unusable e)
  | atEnd message =>
    pure ((match message with
      | none => Parser.atEnd
      | some message => Parser.endWith message).map fun _ => .unit)
  | real message =>
    pure ((match message with
      | none => Parser.real
      | some message => Parser.realWith message).map .real)
  | key e message =>
    let text := e.evalText vars
    texts (match message with
      | none => .key text
      | some message => .keyWith text message)
  | keyIgnoreCase e message =>
    let text := e.evalText vars
    texts (match message with
      | none => .keyIgnoreCase text
      | some message => .keyIgnoreCaseWith text message)
  | number format =>
    match (format.map NumberFormat.record.ofText).getD (.ok {}) with
    | .ok format => pure ((Literal.number format).map fun n => .int (Int64.ofInt n))
    | .error e => .error (.unusable e)
  | quoted quote rule format message =>
    match StringFormat.record.ofText format with
    | .ok format =>
      texts (Literal.quotedWith quote rule.escape format (message.getD Literal.stringMessage))
    | .error e => .error (.unusable e)
  | stringOf language message =>
    let message := message.getD Literal.stringMessage
    texts (match language with
      | .c => Literal.cString message
      | .csharp => Literal.csharpString message
      | .java => Literal.javaString message
      | .js => Literal.jsString message)
  | javaIdentifier message =>
    texts (Literal.javaIdentifier (message.getD Literal.identifierMessage))
  | succeed e => pure (.succeed (e.eval vars))
  | fail message => pure (.fail (message.evalText vars))
  | position => pure (Parser.position.map .ofPosition)
  | moveTo target => pure ((Parser.moveTo (target.eval vars).toPosition).map fun _ => .unit)
  | digit => pure .digit
  | jump target => pure (.jump (target.eval vars).toPosition)
  | failAt message about =>
    pure (.failAt (message.evalText vars) (about.eval vars).toPosition)

end Leaf

namespace Grammar

/-- An expression of one variable as a function. -/
def function1 (vars : Bindings) (e : Expr) (x : String) (a : Value) : Value :=
  e.eval ((x, a) :: vars)

/-- An expression of two variables, `a` and `b`. -/
def function2 (vars : Bindings) (e : Expr) (a b : Value) : Value :=
  e.eval (("a", a) :: ("b", b) :: vars)

/-- An expression of three variables, `a`, `d` and `b`. -/
def function3 (vars : Bindings) (e : Expr) (a d b : Value) : Value :=
  e.eval (("a", a) :: ("d", d) :: ("b", b) :: vars)

/-- The position of a failure as a value. -/
def positionOf : Option Nat → Value
  | none => .none
  | some place => .some (.ofPosition place)

mutual

/-- **The parser of a grammar**, up to its handles. -/
def build (vars : Bindings) (name : KnotName) : Grammar → Built
  | leaf l => do
    let p ← l.build vars
    return fun _ => p
  | map p e => do
    let p ← p.build vars (name.child 0)
    return fun handles => (p handles).map (function1 vars e "it")
  | bind p x q => do
    let p ← p.build vars (name.child 0)
    return fun handles => (p handles).bind fun v => Parser.fresh fun scope =>
      (q.build ((x, v) :: vars) ⟨scope, []⟩).map (· handles)
  | bindMap p x q e => do
    let p ← p.build vars (name.child 0)
    return fun handles => (p handles).bindMap
      (fun v => Parser.fresh fun scope =>
        (q.build ((x, v) :: vars) ⟨scope, []⟩).map (· handles))
      (function2 vars e)
  | seqRight p q => do
    let p ← p.build vars (name.child 0)
    let q ← q.build vars (name.child 1)
    return fun handles => (p handles).seqRight (q handles)
  | seqLeft p q => do
    let p ← p.build vars (name.child 0)
    let q ← q.build vars (name.child 1)
    return fun handles => (p handles).seqLeft (q handles)
  | choice ps => do
    let ps ← buildAll vars name 0 ps
    return fun handles => .choice (ps.map (· handles))
  | orElse p q => do
    let p ← p.build vars (name.child 0)
    let q ← q.build vars (name.child 1)
    return fun handles => (p handles).orElse (q handles)
  | withDefault p e => do
    let p ← p.build vars (name.child 0)
    let default := e.eval vars
    return fun handles => (p handles).withDefault default
  | optional p => do
    let p ← p.build vars (name.child 0)
    return fun handles => (p handles).optional.map fun
      | none => .none
      | some v => .some v
  | lookahead p => do
    let p ← p.build vars (name.child 0)
    return fun handles => (p handles).lookahead
  | notAhead p => do
    let p ← p.build vars (name.child 0)
    return fun handles => (p handles).notAhead.map fun _ => .unit
  | filter p e => do
    let p ← p.build vars (name.child 0)
    return fun handles => (p handles).filter fun v => (function1 vars e "it" v).isTrue
  | mapMessage p e => do
    let p ← p.build vars (name.child 0)
    return fun handles => (p handles).mapMessage fun m => (function1 vars e "m" (.str m)).text
  | mapMessageAt p message about => do
    let p ← p.build vars (name.child 0)
    return fun handles => (p handles).mapMessageAt
      (fun m => (function1 vars message "m" (.str m)).text)
      (fun n => (function1 vars about "pos" (positionOf n)).toPosition)
  | withMessage p message => do
    let p ← p.build vars (name.child 0)
    return fun handles => (p handles).withMessage message
  | foldSep p d e => do
    let p ← p.build vars (name.child 0)
    let d ← d.build vars (name.child 1)
    return fun handles => (p handles).foldSep (d handles) (function3 vars e)
  | foldSepRight p d e => do
    let p ← p.build vars (name.child 0)
    let d ← d.build vars (name.child 1)
    return fun handles => (p handles).foldSepRight (d handles) (function3 vars e)
  | foldMany1 p e => do
    let p ← p.build vars (name.child 0)
    return fun handles => (p handles).foldMany1 (function2 vars e)
  | foldMany p e otherwise => do
    let p ← p.build vars (name.child 0)
    let default := otherwise.eval vars
    return fun handles => (p handles).foldMany (function2 vars e) default
  | inEnv p changes => do
    let p ← p.build vars (name.child 0)
    return fun handles => (p handles).inEnvM (applyAll vars handles changes)
  | onText p subject => do
    let p ← p.build vars (name.child 0)
    let subject := (subject.evalText vars).toList
    return fun handles => (p handles).onText subject
  | letrec1 x p =>
    let p := Thunk.mk fun _ => p.build vars (name.child 0)
    .ok fun handles => .letrec1 name fun h => p.get.map (· ((x, h) :: handles))
  | letrec2 x y p q =>
    let p := Thunk.mk fun _ => p.build vars (name.child 0)
    let q := Thunk.mk fun _ => q.build vars (name.child 1)
    .ok fun handles => .letrec2 name
      (fun h i => p.get.map (· ((x, h) :: (y, i) :: handles)))
      (fun h i => q.get.map (· ((x, h) :: (y, i) :: handles)))
  | letrec3 x y z p q r =>
    let p := Thunk.mk fun _ => p.build vars (name.child 0)
    let q := Thunk.mk fun _ => q.build vars (name.child 1)
    let r := Thunk.mk fun _ => r.build vars (name.child 2)
    .ok fun handles => .letrec3 name
      (fun h i j => p.get.map (· ((x, h) :: (y, i) :: (z, j) :: handles)))
      (fun h i j => q.get.map (· ((x, h) :: (y, i) :: (z, j) :: handles)))
      (fun h i j => r.get.map (· ((x, h) :: (y, i) :: (z, j) :: handles)))
  | letrecMany names rules index =>
    let rules := buildLater vars name 0 rules
    .ok fun handles =>
      let entries := Parser.letrecMany name
        (rules.map fun rule hs => rule.get.map (· (names.zip hs ++ handles)))
      entries[index]?.getD (.fail "No rule has this number")
  | ref x => .ok fun handles => (handles.lookup x).getD (.fail ("No rule is called " ++ x))
  | setEnv changes => .ok fun handles => .setEnv (applyAll vars handles changes)

/-- The parsers of grammars, numbered from `index`. -/
def buildAll (vars : Bindings) (name : KnotName) (index : Nat) :
    List Grammar → Except Fault (List (Handles → Parser Value))
  | [] => .ok []
  | p :: ps => do
    let p ← p.build vars (name.child index)
    let ps ← buildAll vars name (index + 1) ps
    return p :: ps

/-- The parsers of rules, built when they are asked for. -/
def buildLater (vars : Bindings) (name : KnotName) (index : Nat) :
    List Grammar → List (Thunk Built)
  | [] => []
  | p :: ps =>
    (Thunk.mk fun _ => p.build vars (name.child index)) :: buildLater vars name (index + 1) ps

/-- What is scanned for, in a scope of its own. -/
def scanFor (vars : Bindings) (handles : Handles) : Scanner → Eval (Option Scan)
  | .absent => pure none
  | .text source =>
    match (Pattern.text source).scan with
    | .ok scan => pure (some scan)
    | .error e => Eval.stop (.unusable e)
  | .grammar p => do
    let scope ← Eval.openScope
    let p ← Eval.ofExcept (p.build vars ⟨scope, []⟩)
    pure (some ((p handles).map Value.text).scan)

/-- A change of an environment. -/
def apply (vars : Bindings) (handles : Handles) : Change → Env → Eval Env
  | .withSkip scanner, env => return env.withSkip (← scanFor vars handles scanner)
  | .withFollow scanner, env => return env.withFollow (← scanFor vars handles scanner)
  | .withSubject subject, env => pure (env.withSubject subject.toList)
  | .withoutSkip, env => pure env.withoutSkip
  | .bare, env => pure env.bare

/-- Changes of an environment in order. -/
def applyAll (vars : Bindings) (handles : Handles) : List Change → Env → Eval Env
  | [], env => pure env
  | c :: cs, env => do applyAll vars handles cs (← apply vars handles c env)

end

end Grammar

end Descent
