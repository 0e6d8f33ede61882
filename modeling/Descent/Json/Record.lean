import Descent.Json.Skip

/-!
# Records

A record is described by its default and its members in order. One description
serves both directions: `Record.write` writes all members in order, and
`Record.read?` takes an object with any of them in any order, or a list that
gives the first ones.

**What is missing keeps its default.** Reading starts at the default and lets
each member that is there override it; a member that is there twice is refused,
so the order of the members of an object cannot matter. Members with other names
are passed over.
-/

namespace Descent

namespace Json

/-- How a type of values is read and written. -/
structure Codec (α : Type) where
  read : Reader α
  write : α → Text

/-- A word of 64 bits, in plain decimal digits. -/
def word : Codec UInt64 where
  read := fun s => do
    let (digits, rest) ← takeWhole? (dropBlanks s)
    match rest with
    | some '.' :: _ => none
    | some 'e' :: _ => none
    | some 'E' :: _ => none
    | _ =>
      let n := digits.foldl (fun n c => 10 * n + (c.toNat - 48)) 0
      if n < 0x10000000000000000 then some (n.toUInt64, rest) else none
  write := fun n => (toString n.toNat).toList

/-- A truth value. -/
def flag : Codec Bool where
  read := fun s =>
    match dropBlanks s with
    | some 't' :: s => (dropText? ['r', 'u', 'e'] s).map fun s => (true, s)
    | some 'f' :: s => (dropText? ['a', 'l', 's', 'e'] s).map fun s => (false, s)
    | _ => none
  write := fun b => if b then ['t', 'r', 'u', 'e'] else ['f', 'a', 'l', 's', 'e']

/-- A text that may be absent. -/
def optionalText : Codec (Option String) where
  read := fun s =>
    match dropBlanks s with
    | some 'n' :: s => (dropText? ['u', 'l', 'l'] s).map fun s => (none, s)
    | s => (readText s).map fun (text, s) => (some (String.ofList text), s)
  write := fun
    | none => ['n', 'u', 'l', 'l']
    | some text => quote text.toList

/-- A member of a record. -/
structure Field (ρ : Type) where
  name : String
  /-- Reads a value of the member, as the change that it makes to a record. -/
  read : Reader (ρ → ρ)
  /-- Writes the value of the member. -/
  write : ρ → Text

/-- The member with a codec at a place of the record. -/
def Field.of {ρ α : Type} (name : String) (codec : Codec α) (get : ρ → α) (set : α → ρ → ρ) :
    Field ρ where
  name := name
  read := fun s => (codec.read s).map fun (a, s) => (set a, s)
  write := fun r => codec.write (get r)

/-- A type of records. -/
structure Record (ρ : Type) where
  default : ρ
  fields : List (Field ρ)

namespace Record

variable {ρ : Type}

/-- The members from one on, each with its name. -/
def writeFields (r : ρ) : List (Field ρ) → Text
  | [] => []
  | [f] => quote f.name.toList ++ ':' :: f.write r
  | f :: fs => quote f.name.toList ++ ':' :: f.write r ++ ',' :: writeFields r fs

/-- **A record as an object**, with all members in order and no blanks. -/
def write (record : Record ρ) (r : ρ) : Text := '\x7b' :: writeFields r record.fields ++ ['\x7d']

/-- The members of an object and its end. Of the steps, each takes one member;
`seen` holds the names of the known members read before. -/
def readMembers (record : Record ρ) : (steps : Nat) → (seen : List String) → ρ → Reader ρ
  | 0, _, _, _ => none
  | steps + 1, seen, r, s => do
    let (key, s) ← readText (dropBlanks s)
    match dropBlanks s with
    | some ':' :: s =>
      let name := String.ofList key
      let (seen, r, s) ← match record.fields.find? (·.name == name) with
        | none => (skipValue s).map fun s => (seen, r, s)
        | some f =>
          if seen.contains name then none
          else (f.read s).map fun (change, s) => (name :: seen, change r, s)
      match dropBlanks s with
      | some '\x7d' :: s => some (r, s)
      | some ',' :: s => readMembers record steps seen r s
      | _ => none
    | _ => none

/-- The first members of a record in order, and the end of the list. -/
def readItems : List (Field ρ) → ρ → Reader ρ
  | [], _, _ => none
  | f :: fs, r, s => do
    let (change, s) ← f.read s
    match dropBlanks s with
    | some ']' :: s => some (change r, s)
    | some ',' :: s => readItems fs (change r) s
    | _ => none

/-- A record at the beginning of a source. -/
def reader (record : Record ρ) : Reader ρ := fun s =>
  match dropBlanks s with
  | some '\x7b' :: s =>
    match dropBlanks s with
    | some '\x7d' :: s => some (record.default, s)
    | s => record.readMembers s.length [] record.default s
  | some '[' :: s =>
    match dropBlanks s with
    | some ']' :: s => some (record.default, s)
    | s => readItems record.fields record.default s
  | _ => none

/-- **The record that a source holds**, with nothing but blanks around it. -/
def read? (record : Record ρ) (s : Source) : Option ρ := do
  let (r, s) ← record.reader s
  if (dropBlanks s).isEmpty then some r else none

end Record

end Json

end Descent
