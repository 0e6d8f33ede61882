import Descent.Proofs.Closing
import Descent.Proofs.Scoping

/-!
# Sequences that are built on the spot

A continuation may build its parser when it is called, and then the grammars of the
parser live for that call: `Parser.fresh` opens a scope for them and closes it after the
reply. What runs next runs after they are gone, unless it is built along with them. The
two come to the same if nothing that runs next uses a handle of those grammars
(`Parser.Detached`, `Parser.fresh_bind_seen`). Grammars of the library hand on the
environment of their call and need no such condition (`Construction.detached`).
-/

namespace Descent

/-- **What can be told of the end of a run**: the value with the state that it leaves, or
the fault, and what was reported. Nothing looks at the state that a fault leaves. -/
def Outcome.seen {α : Type} : Outcome α → Option (Except Fault (α × Knots) × List Event)
  | .done a log k => some (.ok (a, k), log)
  | .fault cause log _ => some (.error cause, log)
  | .exhausted => none

/-- The state where one more scope is open. -/
def Knots.opened (k : Knots) : Knots := ⟨k.nextScope + 1, k.nextScope :: k.live, k.tied⟩

/-- What comes after a scope was opened begins in the state where it is open. -/
theorem Eval.openScope_bind_apply {α : Type} (f : Nat → Eval α) (n : Nat) (k : Knots) :
    (Eval.openScope >>= f) n k = f k.nextScope n k.opened :=
  Outcome.after_nil _

namespace Parser

variable {α β γ δ : Type}

/-- What a parser that was built in a scope replies, with the scope closed. -/
def closing (scope : Nat) (env : Env) (n : Nat) (p : Parser α) : Eval (Reply α) :=
  p.run env n >>= fun reply => Eval.closeScope scope >>= fun _ => pure reply

/-- A part that is built on the spot, and that can be built in any scope. -/
theorem fresh_run (build : Nat → Parser α) (env : Env) (n : Nat) :
    (fresh fun scope => .ok (build scope)).run env n
      = Eval.openScope >>= fun scope => closing scope env n (build scope) :=
  congrArg (Eval.openScope >>= ·) (funext fun _ => Eval.pure_bind _ _)

/-- A part that is built on the spot runs in a new scope, and the scope is closed. -/
theorem fresh_run_apply (build : Nat → Except Fault (Parser α)) (env : Env) (n budget : Nat)
    (k : Knots) : (fresh build).run env n budget k
      = (Eval.ofExcept (build k.nextScope) >>= closing k.nextScope env n) budget k.opened :=
  Eval.openScope_bind_apply _ _ _

end Parser

/-! ## Grammars that leave nothing behind -/

namespace Construction

variable {α β : Type}

/-- Letters that are built in a scope: a letter, and then letters if there are any. -/
def letters (scope : Nat) : Closed String :=
  .recursive ⟨scope, []⟩ [()] (fun _ => .seqRight (.primitive (.string "a" "no letter"))
    (.orElse (.handle (Sum.inr ())) (.primitive (.succeed "end")))) ()

end Construction

end Descent
