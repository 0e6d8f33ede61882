import Descent.Parser.Token
import Descent.Regex.Program
import Descent.Regex.Reading
import Descent.Regex.Meaning

/-!
# Matching

A match is searched by following all ways through a program at once, in order
of preference, one character after another. A `Thread` is one way, with the
place where its match began. Ways that meet at a node are the same from there
on, so of these only the preferred one is kept, and the work at each place is
bounded by the number of nodes.

The match that is found begins as early as possible, and among those it is the
one that the order of preference puts first.

**Anchoring.** A pattern of a grammar is read as the text `\A(?:` and `)` around
it. A pattern may close that group itself, as `a)|(?:b` does; its second
alternative is then found further on too, and what stands before it is passed
over.
-/

namespace Descent

namespace Regex

/-- One way through a program. -/
structure Thread where
  node : Nat
  start : Nat
  deriving Repr, DecidableEq

/-- Whether a character belongs to a word. -/
def isWordChar (unicode : Bool) (c : Option Char) : Bool :=
  match c with
  | none => false
  | some c => (if unicode then Unicode.wordChars else asciiWord).contains c

/-- Whether the place between two characters is as asserted. -/
def Look.holds (before after : Option Char) : Look → Bool
  | .start => before.isNone
  | .stop => after.isNone
  | .startLine => before.isNone || before == some '\n'
  | .stopLine => after.isNone || after == some '\n'
  | .startLineCrlf =>
    before.isNone || before == some '\n' || (before == some '\r' && after != some '\n')
  | .stopLineCrlf =>
    after.isNone || after == some '\r' || (after == some '\n' && before != some '\r')
  | .word u => isWordChar u before != isWordChar u after
  | .notWord u => isWordChar u before == isWordChar u after
  | .wordStart u => !isWordChar u before && isWordChar u after
  | .wordStop u => isWordChar u before && !isWordChar u after
  | .wordStartHalf u => !isWordChar u before
  | .wordStopHalf u => !isWordChar u after

/-- The nodes seen at a place, and the threads that wait there, in reverse. -/
structure Place where
  seen : Array Bool
  threads : List Thread

namespace Program

/-- Follows the ways from a node to where they take a character or end. -/
def follow (p : Program) (holds : Look → Bool) (start : Nat) : (steps : Nat) → Nat → Place → Place
  | 0, _, place => place
  | steps + 1, i, ⟨seen, threads⟩ =>
    if seen.getD i true then ⟨seen, threads⟩
    else
      let place : Place := ⟨seen.setIfInBounds i true, threads⟩
      match p.nodes[i]? with
      | some (.look l next) =>
        if holds l then p.follow holds start steps next place else place
      | some (.fork targets) =>
        targets.foldl (fun place next => p.follow holds start steps next place) place
      | some _ => ⟨place.seen, ⟨i, start⟩ :: place.threads⟩
      | none => place

/-- The threads that wait at a place which some threads reach, in order. -/
def settle (p : Program) (holds : Look → Bool) (arrivals : List Thread) : List Thread :=
  let place := arrivals.foldl
    (fun place t => p.follow holds t.start p.nodes.size t.node place)
    ⟨Array.replicate p.nodes.size false, []⟩
  place.threads.reverse

/-- The threads that go on with a character, up to the first one that is a match,
and where that match began. -/
def advance (p : Program) (c : Option Char) : List Thread → List Thread × Option Nat
  | [] => ([], none)
  | t :: ts =>
    match p.nodes[t.node]? with
    | some .accept => ([], some t.start)
    | some (.take s next) =>
      let (threads, hit) := p.advance c ts
      if c.any s.contains then (⟨next, t.start⟩ :: threads, hit) else (threads, hit)
    | _ => p.advance c ts

/-- What happens at a place: the threads that go on, and the best match so far. -/
def visit (p : Program) (before after : Option Char) (index : Nat) (arrivals : List Thread)
    (best : Option (Nat × Nat)) : List Thread × Option (Nat × Nat) :=
  let arrivals :=
    if best.isNone && (index = 0 || !p.anchored) then arrivals ++ [⟨p.start, index⟩]
    else arrivals
  match arrivals with
  | [] => ([], best)
  | _ =>
    let (threads, hit) := p.advance after (p.settle (Look.holds before after) arrivals)
    (threads, (hit.map fun start => (start, index)).or best)

/-- The search from a place on. -/
def searchFrom (p : Program) (before : Option Char) (index : Nat) (arrivals : List Thread)
    (best : Option (Nat × Nat)) : Text → Option (Nat × Nat)
  | [] => (p.visit before none index arrivals best).2
  | c :: cs =>
    match p.visit before (some c) index arrivals best with
    | ([], some found) => some found
    | ([], none) => if p.anchored then none else p.searchFrom (some c) (index + 1) [] none cs
    | (threads, best) => p.searchFrom (some c) (index + 1) threads best cs

/-- **The match in a text**: what stands before it, and what it matched. -/
def find? (p : Program) (text : Text) : Option Match :=
  (p.searchFrom none 0 [] none text).map fun (start, stop) =>
    ⟨text.take start, (text.drop start).take (stop - start)⟩

end Program

/-- How much memory a program may take, in bytes. -/
def maxWeight : Nat := 10 * 1048576

/-- **The program of the text of a pattern**, as it stands. -/
def compile (text : Text) : Except SyntaxError Program := do
  let syn ← Syntax.read text
  let (term, _) ← syn.toTerm Flags.initial
  if maxWeight < term.weight then throw .tooLarge
  return Program.ofTerm term

/-- The text of a pattern that is to match where it begins. -/
def anchor (text : Text) : Text := ['\\', 'A', '(', '?', ':'] ++ text ++ [')']

/-- The program of a pattern of a grammar. -/
def compileAnchored (pattern : String) : Except SyntaxError Program :=
  compile (anchor pattern.toList)

end Regex

namespace Parser

/-- Matches a compiled pattern. -/
def matching (program : Regex.Program) (message : String) : Parser String :=
  token program.find? message

/-- **Matches a pattern**, with a message of one's own. -/
def patternWith (pattern message : String) : Except RunError (Parser String) :=
  match Regex.compileAnchored pattern with
  | .ok program => .ok (matching program message)
  | .error e => .error (.pattern e.message)

/-- Matches a pattern. -/
def pattern (pattern : String) : Except RunError (Parser String) :=
  patternWith pattern ("Does not match pattern " ++ pattern)

end Parser

end Descent
