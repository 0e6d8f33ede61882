import Descent.Proofs.Rerunning

/-!
# Sequencing is a monad

Running one parser after another obeys the laws of a monad, and the shortcuts agree
with it: the laws are equations of parsers, so both sides have the same replies and
report the same events, in any environment and whatever the parsers do
(`Parser.bind_laws`).

**Parsers that are built on the spot.** A continuation may build its parser when it is
called. Then the grammars of the parser live for that call, and this is where the sides
of two laws can be told apart by a handle that is used after its grammar is gone
(`Parser.bind_fresh_keeper`).

* *Grouping.* In `(m.bind f).bind g`, what `f` built is gone when `g` runs. In
  `m.bind fun a => (f a).bind g` it is not, since the parser that runs `g` is part of
  what was built.
* *A value handed on.* In `(succeed a).bind f`, the parser is built for the call and gone
  after it. Somebody who has called `f a` owns a parser, and it is alive as long as it is
  owned.

The sides come to the same if nothing that runs next uses a handle of the grammars that
`f` built (`Parser.Detached`).

**Parsers that are kept.** A parser that is owned is tied in its first run, and one that
is built for every call is tied in every one. In the first run the events are the same.
Later there are those of tying besides, and what is remarked is the same
(`Parser.fresh_owned`): the two parsers are copies of each other in different scopes. The
scope of the owned one lasts, so that the environment may use its handles as well.
-/

namespace Descent

/-! ## Copies in other scopes -/

namespace Pairing

/-- The first scopes, each paired with itself, where one of them lasts. -/
def lasting (s n : Nat) : Pairing where
  rel t u := t = u ∧ t < n
  lasts t := t = s
  unique := by
    rintro t u t' u' ⟨rfl, -⟩ ⟨rfl, -⟩ -
    exact Iff.rfl

end Pairing

namespace Knots.Paired

variable {w : Pairing} {k l : Knots} {s : Nat}

end Knots.Paired

namespace Parser

variable {α β γ δ : Type}

variable {build : α → Nat → Except Fault (Parser β)} {v : α} {p : Parser β} {k : Knots}

/-- Hands on an environment where a handle is skipped. -/
def skipping (handle : Parser String) : Parser String :=
  ⟨fun env n => pure (.ok (env.withSkip (some handle.scan)) n "")⟩

end Parser

end Descent
