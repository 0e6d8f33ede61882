import Descent.CharSet

/-!
# Patterns by meaning

A `Term` is a pattern whose flags have been applied: characters are texts or
sets, and places are asserted of the characters beside them. Terms are built by
`Term.repetitionOf`, `Term.concatOf` and `Term.alternationOf`, which bring them
into the form that is matched.

The form matters where a pattern can match in more than one way. Two rules of
it are visible: what can only match nothing is repeated at most once, and
alternatives that begin alike are matched as their common beginning with the
alternatives of what follows, so that the beginning is decided first.
-/

namespace Descent

namespace Regex

/-- What is asserted of a place between two characters. -/
inductive Look where
  | start
  | stop
  | startLine
  | stopLine
  | startLineCrlf
  | stopLineCrlf
  | word (unicode : Bool)
  | notWord (unicode : Bool)
  | wordStart (unicode : Bool)
  | wordStop (unicode : Bool)
  | wordStartHalf (unicode : Bool)
  | wordStopHalf (unicode : Bool)
  deriving Repr, DecidableEq

/-- A pattern by meaning. -/
inductive Term where
  | empty
  | literal (text : List Char)
  | set (set : CharSet)
  | look (look : Look)
  | repetition (sub : Term) (least : Nat) (most : Option Nat) (greedy : Bool)
  | capture (sub : Term)
  | concat (parts : List Term)
  | alternation (branches : List Term)
  deriving Repr

namespace Term

/-- A term that matches nowhere. -/
def never : Term := .set CharSet.empty

mutual

/-- The least number of characters of a match; none when there is no bound. -/
def minLength : Term → Option Nat
  | .empty => some 0
  | .literal text => some text.length
  | .set s => if s.isEmpty then none else some 1
  | .look _ => some 0
  | .repetition sub least _ _ => sub.minLength.map (· * least)
  | .capture sub => sub.minLength
  | .concat parts => minSum parts
  | .alternation branches => minBranch branches

def minSum : List Term → Option Nat
  | [] => some 0
  | part :: parts => do return (← part.minLength) + (← minSum parts)

def minBranch : List Term → Option Nat
  | [] => none
  | [branch] => branch.minLength
  | branch :: branches => do return min (← branch.minLength) (← minBranch branches)

end

mutual

/-- The greatest number of characters of a match; none when there is no bound. -/
def maxLength : Term → Option Nat
  | .empty => some 0
  | .literal text => some text.length
  | .set s => if s.isEmpty then none else some 1
  | .look _ => some 0
  | .repetition sub _ most _ => do return (← sub.maxLength) * (← most)
  | .capture sub => sub.maxLength
  | .concat parts => maxSum parts
  | .alternation branches => maxBranch branches

def maxSum : List Term → Option Nat
  | [] => some 0
  | part :: parts => do return (← part.maxLength) + (← maxSum parts)

def maxBranch : List Term → Option Nat
  | [] => none
  | [branch] => branch.maxLength
  | branch :: branches => do return max (← branch.maxLength) (← maxBranch branches)

end

mutual

/-- Whether two terms are written alike. No two groups are, since each is a group
of its own. -/
def same : Term → Term → Bool
  | .empty, .empty => true
  | .literal a, .literal b => a == b
  | .set s, .set t => s == t
  | .look a, .look b => a == b
  | .repetition a l m g, .repetition b l' m' g' => a.same b && l == l' && m == m' && g == g'
  | .concat as, .concat bs => sameAll as bs
  | .alternation as, .alternation bs => sameAll as bs
  | _, _ => false

def sameAll : List Term → List Term → Bool
  | [], [] => true
  | a :: as, b :: bs => a.same b && sameAll as bs
  | _, _ => false

end

/-- A set; one with a single member is a text. -/
def setOf (s : CharSet) : Term :=
  match s.only? with
  | some c => .literal [c]
  | none => .set s

/-- **A repetition.** What can only match nothing is repeated at most once. -/
def repetitionOf (sub : Term) (least : Nat) (most : Option Nat) (greedy : Bool) : Term :=
  let (least, most) :=
    if sub.maxLength = some 0 then (min least 1, some ((most.map (min · 1)).getD 1))
    else (least, most)
  match least, most with
  | 0, some 0 => .empty
  | 1, some 1 => sub
  | least, most => .repetition sub least most greedy

/-- The parts of a term that is a row of parts. -/
def parts : Term → List Term
  | .empty => []
  | .concat ts => ts
  | t => [t]

/-- Adjacent texts joined. -/
def joinLiterals : List Term → List Term
  | [] => []
  | .literal a :: rest =>
    match joinLiterals rest with
    | .literal b :: rest => .literal (a ++ b) :: rest
    | rest => .literal a :: rest
  | t :: rest => t :: joinLiterals rest

/-- **A row of terms**, without rows inside it and with texts joined. -/
def concatOf (ts : List Term) : Term :=
  match joinLiterals (ts.flatMap parts) with
  | [] => .empty
  | [t] => t
  | ts => .concat ts

/-- The branches of a term that is a choice. -/
def branches : Term → List Term
  | .alternation ts => ts
  | t => [t]

/-- The set of alternatives each of which is one character. -/
def letters? : List Term → Option CharSet
  | [] => some CharSet.empty
  | .literal [c] :: ts => (letters? ts).map (·.insert c.toNat c.toNat)
  | _ => none

/-- The set of alternatives each of which is a set. -/
def sets? : List Term → Option CharSet
  | [] => some CharSet.empty
  | .set s :: ts => (sets? ts).map (s.union ·)
  | _ => none

/-- A choice without choices inside it; one between characters is a set. -/
def flatAlternation (ts : List Term) : List Term :=
  match ts.flatMap branches with
  | [] => [never]
  | [t] => [t]
  | ts =>
    match letters? ts with
    | some s => [setOf s]
    | none =>
      match sets? ts with
      | some s => [setOf s]
      | none => ts

/-- A choice that is left as it is. -/
def ofBranches : List Term → Term
  | [t] => t
  | ts => .alternation ts

/-- The beginning that two rows have in common. -/
def commonStart : List Term → List Term → List Term
  | a :: as, b :: bs => if a.same b then a :: commonStart as bs else []
  | _, _ => []

/-- The parts of each of some rows; none if one of the terms is no row. -/
def rows? : List Term → Option (List (List Term))
  | [] => some []
  | .concat ts :: rest => (rows? rest).map (ts :: ·)
  | _ => none

/-- **A choice.** Rows that all begin alike are matched as that beginning, followed
by the choice between what is left of them. -/
def alternationOf (ts : List Term) : Term :=
  let flat := flatAlternation ts
  match flat, rows? flat with
  | _ :: _ :: _, some (row :: rows) =>
    match rows.foldl commonStart row with
    | [] => .alternation flat
    | start =>
      let rest := (row :: rows).map fun r => concatOf (r.drop start.length)
      concatOf (start ++ [ofBranches (flatAlternation rest)])
  | _, _ => ofBranches flat

mutual

/-- Whether every match begins at the start of the text. -/
def isAnchored : Term → Bool
  | .look .start => true
  | .repetition sub least _ _ => least != 0 && sub.isAnchored
  | .capture sub => sub.isAnchored
  | .concat parts => firstAnchored parts
  | .alternation branches => allAnchored branches
  | _ => false

def firstAnchored : List Term → Bool
  | part :: _ => part.isAnchored
  | [] => false

def allAnchored : List Term → Bool
  | [] => true
  | branch :: branches => branch.isAnchored && allAnchored branches

end

mutual

/-- How much memory a term takes when it is compiled, in bytes, roughly. -/
def weight : Term → Nat
  | .empty => 0
  | .literal text => 32 * text.length
  | .set s => 32 + 60 * (s.ranges.filter fun r => 128 ≤ r.2).length
  | .look _ => 32
  | .repetition sub least most _ =>
    (sub.weight + 32) * (match most with
      | some n => n
      | none => max least 1)
  | .capture sub => sub.weight + 64
  | .concat parts => weights parts
  | .alternation branches => weights branches + 32

def weights : List Term → Nat
  | [] => 0
  | t :: ts => t.weight + weights ts

end

end Term

end Regex

end Descent
