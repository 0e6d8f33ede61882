/-!
# Sets of characters

A set of characters is a list of ranges of code points, ascending and with
gaps between them. The form is unique, so two sets are equal exactly when their
lists are, and the first and last member can be read off.

Every operation goes through `CharSet.insert`, which puts a range in its place
and swallows the ranges it touches, or through `CharSet.complement`, which
turns ranges into gaps; intersection and the differences are what these two
make by De Morgan's rules.
-/

namespace Descent

/-- The largest code point. -/
def maxCodePoint : Nat := 0x10FFFF

/-- A set of characters, as ascending ranges of code points with gaps between them. -/
structure CharSet where
  ranges : List (Nat × Nat)
  deriving Repr, DecidableEq

namespace CharSet

/-- No character. -/
def empty : CharSet := ⟨[]⟩

/-- Every character. -/
def all : CharSet := ⟨[(0, maxCodePoint)]⟩

/-- A range put among ascending ranges. -/
def insertRange (lo hi : Nat) : List (Nat × Nat) → List (Nat × Nat)
  | [] => [(lo, hi)]
  | (a, b) :: rs =>
    if hi + 1 < a then (lo, hi) :: (a, b) :: rs
    else if b + 1 < lo then (a, b) :: insertRange lo hi rs
    else insertRange (min lo a) (max hi b) rs

/-- The set with a range of code points more. -/
def insert (lo hi : Nat) (s : CharSet) : CharSet := ⟨insertRange lo hi s.ranges⟩

/-- The set of some ranges, in any order. -/
def ofRanges (rs : List (Nat × Nat)) : CharSet := rs.foldr (fun r s => s.insert r.1 r.2) empty

/-- The set of one character. -/
def single (c : Char) : CharSet := ⟨[(c.toNat, c.toNat)]⟩

/-- The set of a text's characters. -/
def ofText (cs : List Char) : CharSet := ofRanges (cs.map fun c => (c.toNat, c.toNat))

def union (s t : CharSet) : CharSet := s.ranges.foldr (fun r u => u.insert r.1 r.2) t

/-- The gaps between ascending ranges, from a code point on. -/
def gaps (start : Nat) : List (Nat × Nat) → List (Nat × Nat)
  | [] => if start ≤ maxCodePoint then [(start, maxCodePoint)] else []
  | (a, b) :: rs => if start < a then (start, a - 1) :: gaps (b + 1) rs else gaps (b + 1) rs

def complement (s : CharSet) : CharSet := ⟨gaps 0 s.ranges⟩

def inter (s t : CharSet) : CharSet := (s.complement.union t.complement).complement

def diff (s t : CharSet) : CharSet := s.inter t.complement

def symmDiff (s t : CharSet) : CharSet := (s.diff t).union (t.diff s)

def isEmpty (s : CharSet) : Bool := s.ranges.isEmpty

/-- Whether a code point lies in the set. -/
def containsCode (s : CharSet) (n : Nat) : Bool := s.ranges.any fun r => r.1 ≤ n && n ≤ r.2

/-- Whether a character lies in the set. -/
def contains (s : CharSet) (c : Char) : Bool := s.containsCode c.toNat

/-- The only member, if there is just one. -/
def only? (s : CharSet) : Option Char :=
  match s.ranges with
  | [(a, b)] => if a = b then some (Char.ofNat a) else none
  | _ => none

/-- Whether all members are ASCII. -/
def isAscii (s : CharSet) : Bool := s.ranges.all fun r => r.2 < 128

end CharSet

end Descent
