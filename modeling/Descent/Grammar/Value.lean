import Descent.Json.Quoted

/-!
# Values

The values of grammars that are given as data. Every value has a text, which is
what a grammar sees of it where it asks for a text: the text of a list is the
texts of its items in parentheses, and nothing at all has the empty text.

`Value.same` compares values by structure and real numbers as numbers, so the
two zeros are the same and no number that is none is the same as itself.
-/

namespace Descent

/-- What a grammar given as data yields. -/
inductive Value where
  | unit
  | bool (b : Bool)
  | int (n : Int64)
  | real (x : Float)
  | str (s : String)
  | list (items : List Value)
  /-- Something that is not there. -/
  | none
  /-- Something that is there. -/
  | some (content : Value)

namespace Value

/-- What stands in where a grammar names no default: the empty text. -/
def default : Value := str ""

instance : Inhabited Value := ⟨default⟩

/-- The sixteen hexadecimal digits of a word of 64 bits. -/
def hexDigits (bits : UInt64) : String :=
  String.ofList ((List.range 16).map fun i =>
    Json.hexDigit ((bits.toNat / Nat.pow 16 (15 - i)) % 16))

/-- The representation of a real number; all numbers that are none share one. -/
def bits (x : Float) : UInt64 := if x.isNaN then 0x7FF8000000000000 else x.toBits

mutual

/-- **The text of a value.** -/
def text : Value → String
  | unit => ""
  | bool b => if b then "true" else "false"
  | int n => toString n.toInt
  | real x => hexDigits (bits x)
  | str s => s
  | list items => "(" ++ " ".intercalate (texts items) ++ ")"
  | none => ""
  | some content => content.text

/-- The texts of values. -/
def texts : List Value → List String
  | [] => []
  | v :: vs => v.text :: texts vs

end

mutual

/-- Whether two values are the same. -/
def same : Value → Value → Bool
  | unit, unit => true
  | bool a, bool b => a == b
  | int a, int b => a == b
  | real a, real b => a == b
  | str a, str b => a == b
  | list as, list bs => sameItems as bs
  | none, none => true
  | some a, some b => a.same b
  | _, _ => false

/-- Whether two lists hold the same values. -/
def sameItems : List Value → List Value → Bool
  | [], [] => true
  | a :: as, b :: bs => a.same b && sameItems as bs
  | _, _ => false

end

/-- The integer of a text: an optional sign and digits. -/
def integer? (cs : Text) : Option Int :=
  let (negative, digits) := match cs with
    | '+' :: ds => (false, ds)
    | '-' :: ds => (true, ds)
    | ds => (false, ds)
  if digits.isEmpty || !digits.all Char.isDigit then .none
  else
    let n : Int := digits.foldl (fun n c => 10 * n + (c.toNat - 48)) (0 : Nat)
    let n := if negative then -n else n
    if -0x8000000000000000 ≤ n && n < 0x8000000000000000 then .some n else .none

/-- The integer in a value, or zero. -/
def toInt64 : Value → Int64
  | int n => n
  | _ => 0

/-- The items of a value. -/
def items : Value → List Value
  | list items => items
  | _ => []

/-- Whether a value is true. -/
def isTrue : Value → Bool
  | bool b => b
  | _ => false

end Value

end Descent
