import Descent.Json.Quoted

/-!
# Values that nobody asked for

A member with a name that a record does not know is passed over, whatever its
value is, as long as the value is well-formed. Values nest, so passing one is a
recursion; each step of it takes at least one character, and the length of the
source bounds its depth.
-/

namespace Descent

namespace Json

/-- Passes digits, at least one. -/
def skipDigits (s : Source) : Option Source :=
  match takeDigits s with
  | ([], _) => none
  | (_, rest) => some rest

/-- Passes a point and digits, if there is a point. -/
def skipFraction : Source → Option Source
  | some '.' :: s => skipDigits s
  | s => some s

/-- Passes an exponent, if there is one. -/
def skipExponent : Source → Option Source
  | some c :: s =>
    if c = 'e' ∨ c = 'E' then
      match s with
      | some '+' :: s => skipDigits s
      | some '-' :: s => skipDigits s
      | s => skipDigits s
    else some (some c :: s)
  | s => some s

/-- Passes a number. -/
def skipNumber (s : Source) : Option Source := do
  let s := match s with
    | some '-' :: s => s
    | s => s
  let (_, s) ← takeWhole? s
  skipExponent (← skipFraction s)

mutual

/-- Passes a value that nests less deep than a bound. -/
def skipValueWithin : Nat → Source → Option Source
  | 0, _ => none
  | depth + 1, s =>
    match dropBlanks s with
    | some '"' :: s => skipQuoted s
    | some '[' :: s =>
      match dropBlanks s with
      | some ']' :: s => some s
      | s => skipItemsWithin depth s
    | some '\x7b' :: s =>
      match dropBlanks s with
      | some '\x7d' :: s => some s
      | s => skipMembersWithin depth s
    | some 't' :: s => dropText? ['r', 'u', 'e'] s
    | some 'f' :: s => dropText? ['a', 'l', 's', 'e'] s
    | some 'n' :: s => dropText? ['u', 'l', 'l'] s
    | s => skipNumber s

/-- Passes the items of a list and its end. -/
def skipItemsWithin : Nat → Source → Option Source
  | 0, _ => none
  | depth + 1, s => do
    match dropBlanks (← skipValueWithin depth s) with
    | some ']' :: s => some s
    | some ',' :: s => skipItemsWithin depth s
    | _ => none

/-- Passes the members of an object and its end. -/
def skipMembersWithin : Nat → Source → Option Source
  | 0, _ => none
  | depth + 1, s =>
    match dropBlanks s with
    | some '"' :: s => do
      match dropBlanks (← skipQuoted s) with
      | some ':' :: s =>
        match dropBlanks (← skipValueWithin depth s) with
        | some '\x7d' :: s => some s
        | some ',' :: s => skipMembersWithin depth s
        | _ => none
      | _ => none
    | _ => none

end

/-- **Passes any value.** -/
def skipValue (s : Source) : Option Source := skipValueWithin (2 * s.length + 2) s

end Json

end Descent
