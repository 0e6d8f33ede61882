import Descent.Fault
import Descent.Json.Record
import Descent.Literal.Number
import Descent.Literal.Quoted

/-!
# Options

How a parser is run and which literals a notation has can be given as data. Each
kind of options is a `Json.Record`, so all of them are read and written by the
same rules, from a text or from a file.
-/

namespace Descent

/-- How a parser is run: where it starts and which patterns it skips by. -/
structure ParseOptions where
  start : UInt64 := 0
  /-- The pattern of what is skipped before every token. -/
  skip : Option String := none
  /-- The pattern of what may follow a keyword. -/
  follow : Option String := none
  deriving Repr, DecidableEq

namespace ParseOptions

def withSkip (options : ParseOptions) (pattern : String) : ParseOptions :=
  { options with skip := some pattern }

def withFollow (options : ParseOptions) (pattern : String) : ParseOptions :=
  { options with follow := some pattern }

def withStart (options : ParseOptions) (start : UInt64) : ParseOptions :=
  { options with start := start }

/-- The members of run options. -/
def record : Json.Record ParseOptions where
  default := {}
  fields := [
    .of "start" Json.word (·.start) fun a r => { r with start := a },
    .of "skip" Json.optionalText (·.skip) fun a r => { r with skip := a },
    .of "follow" Json.optionalText (·.follow) fun a r => { r with follow := a }]

end ParseOptions

/-- The members of a format of integer literals. -/
def NumberFormat.record : Json.Record NumberFormat where
  default := {}
  fields := [
    .of "binary" Json.flag (·.binary) fun a r => { r with binary := a },
    .of "octal" Json.flag (·.octal) fun a r => { r with octal := a }]

/-- The members of a format of string literals. -/
def StringFormat.record : Json.Record StringFormat where
  default := {}
  fields := [
    .of "include_newline" Json.flag (·.includeNewline) fun a r => { r with includeNewline := a },
    .of "octal" Json.flag (·.octal) fun a r => { r with octal := a },
    .of "hex2" Json.flag (·.hex2) fun a r => { r with hex2 := a },
    .of "unicode4" Json.flag (·.unicode4) fun a r => { r with unicode4 := a },
    .of "hex_var" Json.flag (·.hexVar) fun a r => { r with hexVar := a },
    .of "js_code_point" Json.flag (·.jsCodePoint) fun a r => { r with jsCodePoint := a },
    .of "csharp_code_point" Json.flag (·.csharpCodePoint) fun a r =>
      { r with csharpCodePoint := a }]

/-- What is found at the path of a file. -/
inductive File where
  /-- Nothing can be opened there. -/
  | unopened (reason : String)
  /-- What was opened there cannot be read. -/
  | unreadable (reason : String)
  /-- A file that holds bytes. -/
  | holding (bytes : ByteArray)

/-- A path where there is nothing. -/
def File.missing : File := .unopened "No such file or directory (os error 2)"

/-- A path where there is a directory. -/
def File.directory : File := .unreadable "Is a directory (os error 21)"

namespace Json.Record

variable {ρ : Type}

/-- The options in a source. -/
def ofSource (record : Record ρ) (source : Source) : Except RunError ρ :=
  match record.read? source with
  | some r => .ok r
  | none => .error (.options "not well-formed")

/-- **The options in a text.** -/
def ofText (record : Record ρ) (text : String) : Except RunError ρ :=
  record.ofSource (.ofText text.toList)

/-- **The options in a file.** -/
def ofFile (record : Record ρ) : File → Except RunError ρ
  | .unopened reason => .error (.unreadable reason)
  | .unreadable reason => .error (.options reason)
  | .holding bytes => record.ofSource (.ofBytes bytes)

/-- The text of options. -/
def toText (record : Record ρ) (r : ρ) : String := String.ofList (record.write r)

end Json.Record

end Descent
