import Descent.Eval
import Descent.Text

/-!
# Parsers

A parser takes an environment and a position and computes a reply. The
environment is the subject with two optional scans: one that is skipped before
every token, and one that tells what may follow a keyword. A scan is what is
left of a parser when only the end of its match matters, so environments hold
no parsers and the three types need no recursion.

**Scans run bare.** `Parser.scan` runs the parser in the bare environment of
the subject, with nothing to skip and nothing to follow; whatever a scan
reports, `Env.skipFrom` never moves backwards and never fails.
-/

namespace Descent

/-- The end of a match in a subject, from a position on; `none` when there is no match. -/
abbrev Scan := Text → Nat → Eval (Option Nat)

/-- What a parser runs in. -/
structure Env where
  /-- The text that is parsed. -/
  subject : Text
  /-- What is skipped before every token. -/
  skip : Option Scan
  /-- What may follow a keyword. -/
  follow : Option Scan

namespace Env

/-- A subject with nothing to skip and nothing to follow. -/
def new (subject : Text) : Env := ⟨subject, none, none⟩

/-- The same subject with nothing to skip and nothing to follow. -/
def bare (env : Env) : Env := new env.subject

/-- The size of the subject in bytes. -/
def length (env : Env) : Nat := Text.size env.subject

/-- Whether the subject is empty. -/
def isEmpty (env : Env) : Bool := env.subject.isEmpty

def withSkip (env : Env) (skip : Option Scan) : Env := { env with skip }

def withFollow (env : Env) (follow : Option Scan) : Env := { env with follow }

def withSubject (env : Env) (subject : Text) : Env := { env with subject }

def withoutSkip (env : Env) : Env := env.withSkip none

/-- The text that is left at a position. -/
def from? (env : Env) (position : Nat) : Option Text := Text.from? position env.subject

/-- **The position after what is skipped.** A scan that fails or ends before
the position leaves the position where it is. -/
def skipFrom (env : Env) (position : Nat) : Eval Nat :=
  match env.skip with
  | none => pure position
  | some scan => do
    match ← scan env.subject position with
    | some stop => pure (if position ≤ stop then stop else position)
    | none => pure position

end Env

/-- What comes of invoking a parser: the environment and position to go on
with, and a value; or a message, with the position it is about. -/
inductive Reply (α : Type) where
  | ok (env : Env) (position : Nat) (value : α)
  | fail (message : String) (position : Option Nat)

namespace Reply

variable {α β : Type}

/-- Another value in place of the value. -/
def map (f : α → β) : Reply α → Reply β
  | ok env position value => ok env position (f value)
  | fail message position => fail message position

/-- Another environment to go on with. -/
def rebase (env : Env) : Reply α → Reply α
  | ok _ position value => ok env position value
  | fail message position => fail message position

def isOk : Reply α → Bool
  | ok .. => true
  | fail .. => false

/-- The value of a success. -/
def value : Reply α → Except Fault α
  | ok _ _ value => .ok value
  | fail message _ => .error (.readOfFailure "value" message)

/-- The position where a success ends. -/
def position : Reply α → Except Fault Nat
  | ok _ position _ => .ok position
  | fail message _ => .error (.readOfFailure "position" message)

/-- The environment to go on with. -/
def env : Reply α → Except Fault Env
  | ok env _ _ => .ok env
  | fail message _ => .error (.readOfFailure "environment" message)

/-- The message of a failure. -/
def message : Reply α → Except Fault String
  | ok _ position _ => .error (.readOfSuccess "error message" position)
  | fail message _ => .ok message

/-- The position that a failure is about. -/
def errorPosition : Reply α → Except Fault (Option Nat)
  | ok _ position _ => .error (.readOfSuccess "error position" position)
  | fail _ position => .ok position

end Reply

/-- The text of a failure: its message, and its position if there is one. -/
def failureText (message : String) : Option Nat → String
  | none => message
  | some position => message ++ " at position " ++ toString position

/-- A parser for values of a type. -/
@[ext] structure Parser (α : Type) where
  /-- Invokes the parser in an environment at a position. -/
  run : Env → Nat → Eval (Reply α)

namespace Parser

variable {α β : Type}

/-- **The scan of a parser**: where its match in a bare subject ends. -/
def scan (p : Parser α) : Scan := fun subject position => do
  match ← p.run (Env.new subject) position with
  | .ok _ stop _ => pure (some stop)
  | .fail .. => pure none

/-- The parser returns: some recursion budget is enough for its reply. -/
def Returns (p : Parser α) (env : Env) (position : Nat) (reply : Reply α) : Prop :=
  ∃ budget log before after, p.run env position budget before = .done reply log after

end Parser

end Descent
