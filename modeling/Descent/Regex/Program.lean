import Descent.Regex.Term

/-!
# Programs

A program is a graph of nodes: some take a character, some look at the place
they are at, and some go on to other nodes in order of preference. A term is
compiled backwards, from the node that follows it to the node it begins with.

**Loops.** A repetition whose item always takes a character is one node that
goes into the item or on. If the item can match nothing this would lose the
order of preference, because no node is visited twice at one place; then the
loop is entered through a node of its own.
-/

namespace Descent

namespace Regex

/-- A node of a program. -/
inductive Node where
  /-- Takes a character of a set. -/
  | take (set : CharSet) (next : Nat)
  /-- Goes on if a place is as asserted. -/
  | look (look : Look) (next : Nat)
  /-- Goes on in several ways, the preferred one first. -/
  | fork (targets : List Nat)
  /-- The end of a match. -/
  | accept
  deriving Repr, DecidableEq

/-- A compiled pattern. -/
structure Program where
  nodes : Array Node
  start : Nat
  /-- Matches can only begin at the start of the text. -/
  anchored : Bool
  deriving Repr, DecidableEq

/-- Adding nodes to a program. -/
abbrev Build := StateM (Array Node)

/-- Adds a node. -/
def Build.add (node : Node) : Build Nat := fun nodes => (nodes.size, nodes.push node)

/-- Replaces a node that was added before. -/
def Build.replace (i : Nat) (node : Node) : Build Unit := fun nodes =>
  ((), nodes.setIfInBounds i node)

/-- Two ways to go on; the first is preferred by a greedy repetition. -/
def forkOf (greedy : Bool) (again next : Nat) : Node :=
  .fork (if greedy then [again, next] else [next, again])

/-- So many copies of what `sub` adds, before `next`. -/
def copies (sub : Nat → Build Nat) : Nat → Nat → Build Nat
  | 0, next => return next
  | n + 1, next => do copies sub n (← sub next)

/-- Up to so many copies of what `sub` adds; each of them may be left out together
with all that follow it. -/
def optionals (sub : Nat → Build Nat) (greedy : Bool) (stop : Nat) : Nat → Nat → Build Nat
  | 0, next => return next
  | n + 1, next => do
    let first ← sub next
    optionals sub greedy stop n (← Build.add (forkOf greedy first stop))

/-- One copy or more of what `sub` adds. -/
def loop1 (sub : Nat → Build Nat) (greedy : Bool) (next : Nat) : Build Nat := do
  let again ← Build.add .accept
  let first ← sub again
  Build.replace again (forkOf greedy first next)
  return first

/-- Any number of copies of what `sub` adds, which always takes a character. -/
def loop0 (sub : Nat → Build Nat) (greedy : Bool) (next : Nat) : Build Nat := do
  let again ← Build.add .accept
  let first ← sub again
  Build.replace again (forkOf greedy first next)
  return again

/-- What a repetition adds. -/
def repeated (sub : Nat → Build Nat) (takes : Bool) (least : Nat) (most : Option Nat)
    (greedy : Bool) (next : Nat) : Build Nat := do
  match most with
  | some most => copies sub least (← optionals sub greedy next (most - least) next)
  | none =>
    match least with
    | 0 =>
      if takes then loop0 sub greedy next
      else Build.add (forkOf greedy (← loop1 sub greedy next) next)
    | n + 1 => copies sub n (← loop1 sub greedy next)

mutual

/-- Adds the nodes of a term before `next`. -/
def Term.build : Term → Nat → Build Nat
  | .empty, next => return next
  | .literal text, next =>
    text.foldr (fun c rest => do Build.add (.take (CharSet.single c) (← rest))) (return next)
  | .set s, next => Build.add (.take s next)
  | .look l, next => Build.add (.look l next)
  | .repetition sub least most greedy, next =>
    repeated sub.build (sub.minLength.any (0 < ·)) least most greedy next
  | .capture sub, next => sub.build next
  | .concat parts, next => Term.buildRow parts next
  | .alternation branches, next => do Build.add (.fork (← Term.buildEach branches next))

def Term.buildRow : List Term → Nat → Build Nat
  | [], next => return next
  | part :: parts, next => do part.build (← Term.buildRow parts next)

def Term.buildEach : List Term → Nat → Build (List Nat)
  | [], _ => return []
  | branch :: branches, next => do
    return (← branch.build next) :: (← Term.buildEach branches next)

end

/-- **The program of a term.** -/
def Program.ofTerm (t : Term) : Program :=
  let (start, nodes) := (do t.build (← Build.add .accept) : Build Nat).run #[]
  ⟨nodes, start, t.isAnchored⟩

end Regex

end Descent
