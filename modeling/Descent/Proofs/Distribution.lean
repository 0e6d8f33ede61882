import Descent.Proofs.Repetition
import Descent.Proofs.Scoping

/-!
# A change of environment distributes over a grammar

A grammar may be run in another environment as a whole, or part by part. The two
are the same: a change of environment can be moved in and out of sequences,
alternatives, lookahead and repetitions, and two changes, one inside the other,
are one (`Parser.inEnv_distributes`). They are the same parsers, so that replies,
events and what is remembered of recursive grammars agree.

What comes first in a sequence has to hand on the environment of its call, as
whatever the library builds does (`Construction.keepsEnv`). Part by part, the
second part is run in a change of the environment that the first one hands on;
as a whole, in the one that is left of the change. Nothing is asked of a part
that the parser goes back from, or that comes last.

**The delimiter counts as a part.** Adjacent items have an empty text between them,
and the empty text is found after what is skipped. If items alone are moved to
another environment, the text between them is still looked for in the old one, and
its skip is passed over.
-/

namespace Descent

namespace Reply

variable {α β : Type}

/-- The last environment counts. -/
theorem rebase_rebase (env env' : Env) (reply : Reply α) :
    (reply.rebase env).rebase env' = reply.rebase env' := by
  cases reply <;> rfl

theorem rebase_map (env : Env) (f : α → β) (reply : Reply α) :
    (reply.rebase env).map f = (reply.map f).rebase env := by
  cases reply <;> rfl

end Reply

/-- A round that goes on in another environment. -/
def Round.rebase {δ α : Type} (env : Env) (r : Round δ α) : Round δ α := { r with env }

namespace Round

variable {δ α : Type}

/-- A chain goes on in the environment of its last round. -/
theorem reply_rebase (env env' : Env) (n : Nat) (chain : List (Round δ α)) (a : α) :
    reply env' n (chain.map (rebase env')) a = (reply env n chain a).rebase env' := by
  induction chain generalizing env n with
  | nil => rfl
  | cons r chain ih => exact ih r.env r.stop

theorem foldLeft_rebase (env : Env) (f : α → δ → α → α) (first : α) (chain : List (Round δ α)) :
    foldLeft f first (chain.map (rebase env)) = foldLeft f first chain :=
  List.foldl_map

theorem foldRight_rebase (env : Env) (f : α → δ → α → α) (first : α) (chain : List (Round δ α)) :
    foldRight f first (chain.map (rebase env)) = foldRight f first chain := by
  induction chain generalizing first with
  | nil => rfl
  | cons r chain ih => exact congrArg (f first r.delimiter) (ih r.item)

end Round

namespace Parser

variable {α β γ δ : Type} (g : Env → Env)

/-- **What is done with the reply of a changed environment** is done with the reply
after it was taken back. -/
theorem inEnv_run_bind (p : Parser α) (env : Env) (n : Nat) (f : Reply α → Eval β) :
    (p.inEnv g).run env n >>= f = p.run (g env) n >>= fun reply => f (reply.rebase env) := by
  refine (Eval.bind_assoc _ _ _).trans (congrArg (p.run (g env) n >>= ·) (funext fun reply => ?_))
  exact Eval.pure_bind _ _

/-- **In the changed environment, and then taken back**: what is made of a reply may
be made in the changed environment and transformed at the end, or be made of the reply
that was taken back. -/
theorem inEnv_run_bind_congr {p : Parser α} {env : Env} {n : Nat} {P : Reply α → Prop}
    {f : Reply α → Eval β} {f' : Reply α → Eval γ} {last : β → Eval γ}
    (hp : (p.run (g env) n).Ensures P)
    (h : ∀ reply, P reply → (f reply >>= last) = f' (reply.rebase env)) :
    ((p.run (g env) n >>= f) >>= last) = ((p.inEnv g).run env n >>= f') := by
  rw [inEnv_run_bind, Eval.bind_assoc]
  exact hp.bind_congr h

/-- The same for any reply. -/
theorem inEnv_run_bind_any {p : Parser α} {env : Env} {n : Nat}
    {f : Reply α → Eval β} {f' : Reply α → Eval γ} {last : β → Eval γ}
    (h : ∀ reply, (f reply >>= last) = f' (reply.rebase env)) :
    ((p.run (g env) n >>= f) >>= last) = ((p.inEnv g).run env n >>= f') :=
  inEnv_run_bind_congr g (P := fun _ => True) (fun _ _ _ _ _ _ => trivial) fun reply _ => h reply

/-- **Two changes are one**, the outer one first. -/
theorem inEnv_inEnv (p : Parser α) (g' : Env → Env) :
    (p.inEnv g).inEnv g' = p.inEnv fun env => g (g' env) := by
  ext env n
  refine (inEnv_run_bind g p (g' env) n _).trans
    (congrArg (p.run (g (g' env)) n >>= ·) (funext fun reply => ?_))
  rw [Reply.rebase_rebase]

/-! ## Sequences -/

/-- **A change of environment and a sequence.** What follows is run in the changed
environment, or in a change of the one that was handed on. -/
theorem bind_inEnv {p : Parser α} (hp : p.KeepsEnv) (f : α → Parser β) :
    (p.bind f).inEnv g = (p.inEnv g).bind fun a => (f a).inEnv g := by
  ext env n
  refine inEnv_run_bind_congr g (hp (g env) n) fun reply hreply => ?_
  cases reply with
  | ok env' stop a => obtain rfl : env' = g env := hreply; rfl
  | fail message about => exact Eval.pure_bind _ _

theorem map_inEnv (p : Parser α) (f : α → β) : (p.map f).inEnv g = (p.inEnv g).map f := by
  ext env n
  refine inEnv_run_bind_any g fun reply => ?_
  rw [Reply.rebase_map]
  exact Eval.pure_bind _ _

theorem seqRight_inEnv {p : Parser α} (hp : p.KeepsEnv) (q : Parser β) :
    (p.seqRight q).inEnv g = (p.inEnv g).seqRight (q.inEnv g) :=
  bind_inEnv g hp fun _ => q

theorem seqLeft_inEnv {p : Parser α} (hp : p.KeepsEnv) (q : Parser β) :
    (p.seqLeft q).inEnv g = (p.inEnv g).seqLeft (q.inEnv g) := by
  rw [seqLeft_eq_bind, seqLeft_eq_bind, bind_inEnv g hp]
  exact congrArg (p.inEnv g).bind (funext fun a => map_inEnv g q fun _ => a)

/-! ## Parsers that go back

They go back to the environment of their call, whatever their parts hand on. -/

theorem orElse_inEnv (p q : Parser α) :
    (p.orElse q).inEnv g = (p.inEnv g).orElse (q.inEnv g) := by
  ext env n
  refine inEnv_run_bind_any g fun reply => ?_
  cases reply with
  | ok env' stop a => exact Eval.pure_bind _ _
  | fail message about => exact Eval.bind_assoc _ _ _

/-- One alternative after another, in the changed environment. -/
theorem firstOf_inEnv (ps : List (Parser α)) (env : Env) (n index : Nat) (failure : Reply α) :
    (firstOf index failure ps (g env) n >>= fun reply => pure (reply.rebase env))
      = firstOf index (failure.rebase env) (ps.map (·.inEnv g)) env n := by
  induction ps generalizing index failure with
  | nil => exact Eval.pure_bind _ _
  | cons p ps ih =>
    refine inEnv_run_bind_any g fun reply => ?_
    cases reply with
    | ok env' stop a => exact Eval.pure_bind _ _
    | fail message about =>
      refine (Eval.bind_assoc _ _ _).trans ?_
      exact congrArg (Eval.emit (.alternativeFailed index n message) >>= ·)
        (funext fun _ => ih (index + 1) (.fail message about))

theorem choice_inEnv (ps : List (Parser α)) :
    (choice ps).inEnv g = choice (ps.map (·.inEnv g)) := by
  ext env n
  exact firstOf_inEnv g ps env n 0 (.fail "No alternative" (some n))

theorem withDefault_inEnv (p : Parser α) (default : α) :
    (p.withDefault default).inEnv g = (p.inEnv g).withDefault default := by
  ext env n
  refine inEnv_run_bind_any g fun reply => ?_
  cases reply <;> exact Eval.pure_bind _ _

theorem optional_inEnv (p : Parser α) : p.optional.inEnv g = (p.inEnv g).optional := by
  rw [optional, optional, withDefault_inEnv, map_inEnv]

theorem lookahead_inEnv (p : Parser α) : p.lookahead.inEnv g = (p.inEnv g).lookahead := by
  ext env n
  refine inEnv_run_bind_any g fun reply => ?_
  cases reply <;> exact Eval.pure_bind _ _

theorem notAhead_inEnv (p : Parser α) : p.notAhead.inEnv g = (p.inEnv g).notAhead := by
  ext env n
  refine inEnv_run_bind_any g fun reply => ?_
  cases reply <;> exact Eval.pure_bind _ _

/-! ## Repetition -/

variable {item : Parser α} {delimiter : Parser δ}

/-- **A round whose parts change the environment** is a round in the changed
environment, and goes on in the one that was there before. -/
theorem round_inEnv (hdelimiter : delimiter.KeepsEnv) (env : Env) (n : Nat) :
    (round item delimiter (g env) n >>= fun r => pure (r.map (Round.rebase env)))
      = round (item.inEnv g) (delimiter.inEnv g) env n := by
  have hend : ∀ reason, (Eval.emit reason >>= fun _ => pure none >>=
      fun r : Option (Round δ α) => pure (r.map (Round.rebase env)))
        = (Eval.emit reason >>= fun _ => pure none) :=
    fun reason => congrArg (Eval.emit reason >>= ·) (funext fun _ => Eval.pure_bind _ _)
  refine inEnv_run_bind_congr g (hdelimiter (g env) n) fun reply hreply => ?_
  cases reply with
  | fail message about => exact (Eval.bind_assoc _ _ _).trans (hend _)
  | ok env' middle d =>
    obtain rfl : env' = g env := hreply
    refine inEnv_run_bind_any g fun reply => ?_
    cases reply with
    | fail message about => exact (Eval.bind_assoc _ _ _).trans (hend _)
    | ok env' stop a =>
      simp only [Reply.rebase]
      split
      · exact Eval.pure_bind _ _
      · exact (Eval.bind_assoc _ _ _).trans (hend _)

/-- **A chain of such rounds.** Every round begins in the environment of the first one,
since items and delimiters hand it on. The induction is on the rounds that are allowed. -/
theorem rounds_inEnv (hitem : item.KeepsEnv) (hdelimiter : delimiter.KeepsEnv) (left : Nat)
    (env : Env) (n : Nat) :
    (rounds item delimiter left (g env) n >>= fun chain =>
        pure (chain.map (Round.rebase env)))
      = rounds (item.inEnv g) (delimiter.inEnv g) left env n := by
  induction left generalizing n with
  | zero =>
    unfold rounds
    rw [← round_inEnv g hdelimiter, Eval.bind_assoc, Eval.bind_assoc]
    refine congrArg (round item delimiter (g env) n >>= ·) (funext fun r => ?_)
    rw [Eval.pure_bind]
    cases r <;> exact Eval.pure_bind _ _
  | succ left ih =>
    unfold rounds
    rw [← round_inEnv g hdelimiter, Eval.bind_assoc, Eval.bind_assoc]
    refine (KeepsEnv.round hitem hdelimiter (g env) n).bind_congr fun r hr => ?_
    rw [Eval.pure_bind]
    cases r with
    | none => exact Eval.pure_bind _ _
    | some r =>
      show ((rounds item delimiter left r.env r.stop >>= fun chain => pure (r :: chain)) >>= _)
        = (rounds (item.inEnv g) (delimiter.inEnv g) left env r.stop >>= _)
      rw [hr r rfl, ← ih r.stop, Eval.bind_assoc, Eval.bind_assoc]
      refine congrArg (rounds item delimiter left (g env) r.stop >>= ·) (funext fun chain => ?_)
      rw [Eval.pure_bind, Eval.pure_bind]
      rfl

/-- **A repetition** whose value is made of the items and delimiters alone. -/
theorem repetition_inEnv (hitem : item.KeepsEnv) (hdelimiter : delimiter.KeepsEnv)
    (value : α → List (Round δ α) → α)
    (hvalue : ∀ env first chain, value first (chain.map (Round.rebase env)) = value first chain) :
    (repetition item delimiter value).inEnv g
      = repetition (item.inEnv g) (delimiter.inEnv g) value := by
  ext env n
  refine inEnv_run_bind_congr g (hitem (g env) n) fun reply hreply => ?_
  cases reply with
  | fail message about => exact Eval.pure_bind _ _
  | ok env' stop first =>
    obtain rfl : env' = g env := hreply
    show (rounds item delimiter (maxPosition - stop) (g env) stop >>= _) >>= _
      = (rounds (item.inEnv g) (delimiter.inEnv g) (maxPosition - stop) env stop >>= _)
    rw [← rounds_inEnv g hitem hdelimiter, Eval.bind_assoc, Eval.bind_assoc]
    refine congrArg (rounds item delimiter (maxPosition - stop) (g env) stop >>= ·)
      (funext fun chain => ?_)
    rw [Eval.pure_bind, Eval.pure_bind, hvalue]
    exact congrArg pure (Round.reply_rebase (g env) env stop chain _).symm

theorem foldSep_inEnv (hitem : item.KeepsEnv) (hdelimiter : delimiter.KeepsEnv)
    (f : α → δ → α → α) :
    (item.foldSep delimiter f).inEnv g = (item.inEnv g).foldSep (delimiter.inEnv g) f := by
  rw [foldSep_eq_repetition, foldSep_eq_repetition]
  exact repetition_inEnv g hitem hdelimiter _ fun env => Round.foldLeft_rebase env f

theorem foldSepRight_inEnv (hitem : item.KeepsEnv) (hdelimiter : delimiter.KeepsEnv)
    (f : α → δ → α → α) :
    (item.foldSepRight delimiter f).inEnv g
      = (item.inEnv g).foldSepRight (delimiter.inEnv g) f := by
  rw [foldSepRight_eq_repetition, foldSepRight_eq_repetition]
  exact repetition_inEnv g hitem hdelimiter _ fun env => Round.foldRight_rebase env f

/-- Adjacent items, with the empty text between them looked for where the items are. -/
theorem foldMany1_inEnv (hitem : item.KeepsEnv) (f : α → α → α) :
    (item.foldMany1 f).inEnv g
      = (item.inEnv g).foldSep ((string "").inEnv g) fun acc _ a => f acc a :=
  foldSep_inEnv g hitem (.token _ _) _

/-- Two letters with a blank between them, where blanks are skipped. -/
def spacedLetters : Env := ⟨['a', ' ', 'a'], some (string " ").scan, none⟩

/-- As a whole, the second letter is looked for at the blank. -/
theorem foldMany1_inEnv_spacedLetters :
    ∃ log, (((string "a").foldMany1 (· ++ ·)).inEnv Env.withoutSkip).run spacedLetters 0 0 .initial
      = .done (.ok spacedLetters 1 "a") log .initial := by
  have hfirst : (string "a").run spacedLetters.withoutSkip 0 0 .initial
      = .done (.ok spacedLetters.withoutSkip 1 "a") [] .initial := rfl
  have hempty : (string "").run spacedLetters.withoutSkip 1 0 .initial
      = .done (.ok spacedLetters.withoutSkip 1 "") [] .initial := rfl
  have hblank : (string "a").run spacedLetters.withoutSkip 1 0 .initial
      = .done (.fail "Does not match a" (some 1)) [] .initial := rfl
  have hone := ((Repeats.foldMany1 fun acc a => acc ++ a).eq_done_iff hfirst).mpr
    ⟨[], _, .stop (.noItem hempty hblank), rfl, rfl⟩
  exact ⟨_, Eval.bind_eq_done_iff.mpr ⟨_, _, _, [], hone, rfl, rfl⟩⟩

/-- Part by part, the blank is skipped before the empty text. -/
theorem inEnv_foldMany1_spacedLetters :
    ∃ log, (((string "a").inEnv Env.withoutSkip).foldMany1 (· ++ ·)).run spacedLetters 0 0 .initial
      = .done (.ok spacedLetters 3 "aa") log .initial := by
  have hfirst : ((string "a").inEnv Env.withoutSkip).run spacedLetters 0 0 .initial
      = .done (.ok spacedLetters 1 "a") [] .initial := rfl
  have hempty : (string "").run spacedLetters 1 0 .initial
      = .done (.ok spacedLetters 2 "") [] .initial := rfl
  have hsecond : ((string "a").inEnv Env.withoutSkip).run spacedLetters 2 0 .initial
      = .done (.ok spacedLetters 3 "a") [] .initial := rfl
  have hempty' : (string "").run spacedLetters 3 0 .initial
      = .done (.ok spacedLetters 3 "") [] .initial := rfl
  have hnone : ((string "a").inEnv Env.withoutSkip).run spacedLetters 3 0 .initial
      = .done (.fail "Does not match a" (some 3)) [] .initial := rfl
  have hchain := Chain.round (.intro hempty hsecond (by decide) (by decide))
    (.stop (.noItem hempty' hnone))
  exact ⟨_, ((Repeats.foldMany1 fun acc a => acc ++ a).eq_done_iff hfirst).mpr
    ⟨_, _, hchain, rfl, rfl⟩⟩

/-- **Items alone cannot be moved.** The blank between the letters is no part of an
item, so it is skipped before the empty text unless that is looked for elsewhere. -/
theorem foldMany1_inEnv_ne :
    ((string "a").foldMany1 (· ++ ·)).inEnv Env.withoutSkip
      ≠ ((string "a").inEnv Env.withoutSkip).foldMany1 (· ++ ·) := by
  intro h
  obtain ⟨log, hwhole⟩ := foldMany1_inEnv_spacedLetters
  obtain ⟨log', hparts⟩ := inEnv_foldMany1_spacedLetters
  rw [h, hparts, Outcome.done.injEq, Reply.ok.injEq] at hwhole
  exact absurd hwhole.1.2.1 (by decide)

/-- **A change of environment distributes over the structure of a grammar**, where the
parts that something follows hand on the environment of their call. Adjacent items take
the empty text between them along, and have to. -/
theorem inEnv_distributes (g g' : Env → Env) {p : Parser α} (hp : p.KeepsEnv) (p' : Parser α)
    (q : Parser β) {d : Parser δ} (hd : d.KeepsEnv) (ps : List (Parser α)) (f : α → δ → α → α)
    (f₁ : α → α → α) :
    (p.seqRight q).inEnv g = (p.inEnv g).seqRight (q.inEnv g)
    ∧ (p.seqLeft q).inEnv g = (p.inEnv g).seqLeft (q.inEnv g)
    ∧ (p.orElse p').inEnv g = (p.inEnv g).orElse (p'.inEnv g)
    ∧ (choice ps).inEnv g = choice (ps.map (·.inEnv g))
    ∧ p.lookahead.inEnv g = (p.inEnv g).lookahead
    ∧ p.notAhead.inEnv g = (p.inEnv g).notAhead
    ∧ p.optional.inEnv g = (p.inEnv g).optional
    ∧ (p.foldSep d f).inEnv g = (p.inEnv g).foldSep (d.inEnv g) f
    ∧ (p.foldSepRight d f).inEnv g = (p.inEnv g).foldSepRight (d.inEnv g) f
    ∧ (p.inEnv g).inEnv g' = p.inEnv (fun env => g (g' env))
    ∧ (p.foldMany1 f₁).inEnv g
        = (p.inEnv g).foldSep ((string "").inEnv g) (fun acc _ a => f₁ acc a)
    ∧ ∃ (item : Parser String) (change : Env → Env), item.KeepsEnv
        ∧ (item.foldMany1 (· ++ ·)).inEnv change ≠ (item.inEnv change).foldMany1 (· ++ ·) :=
  ⟨seqRight_inEnv g hp q, seqLeft_inEnv g hp q, orElse_inEnv g p p', choice_inEnv g ps,
    lookahead_inEnv g p, notAhead_inEnv g p, optional_inEnv g p, foldSep_inEnv g hp hd f,
    foldSepRight_inEnv g hp hd f, inEnv_inEnv g p g', foldMany1_inEnv g hp f₁,
    string "a", Env.withoutSkip, .token _ _, foldMany1_inEnv_ne⟩

/-- Letters between commas, with blanks that are skipped for the whole or for the parts. -/
theorem inEnv_distributes_letters :
    let p := Construction.forgetfulLetters.toParser
    let blanks : Env → Env := fun env => env.withSkip (some (string " ").scan)
    let env := Env.new [' ', 'a', ',', ' ', 'a']
    p.KeepsEnv ∧ (string ",").KeepsEnv
    ∧ (∃ log k', ((p.foldSep (string ",") fun a _ b => a ++ b).inEnv blanks).run env 0 4 .initial
        = .done (.ok env 5 "endend") log k')
    ∧ ∃ log k', ((p.inEnv blanks).foldSep ((string ",").inEnv blanks) fun a _ b =>
        a ++ b).run env 0 4 .initial = .done (.ok env 5 "endend") log k' := by
  intro p blanks env
  have hp : p.KeepsEnv := Construction.forgetfulLetters.keepsEnv
    (fun _ => ⟨trivial, ⟨trivial, trivial⟩, trivial⟩) fun v => v.elim
  have hd : (string ",").KeepsEnv := .token _ _
  -- where the letters and the comma are found in the changed environment
  let tied : Knots := ⟨1, [0], [⟨0, []⟩]⟩
  have hfirst : ∃ log, p.run (blanks env) 0 4 .initial
      = .done (.ok (blanks env) 2 "end") log tied := ⟨_, rfl⟩
  have hcomma : (string ",").run (blanks env) 2 4 tied = .done (.ok (blanks env) 3 ",") [] tied :=
    rfl
  have hsecond : ∃ log, p.run (blanks env) 3 4 tied = .done (.ok (blanks env) 5 "end") log tied :=
    ⟨_, rfl⟩
  have hnone : (string ",").run (blanks env) 5 4 tied
      = .done (.fail "Does not match ," (some 5)) [] tied := rfl
  obtain ⟨log₁, hfirst⟩ := hfirst
  obtain ⟨log₂, hsecond⟩ := hsecond
  have hchain := Chain.round (.intro hcomma hsecond (by decide) (by decide))
    (.stop (.noDelimiter hnone))
  have hsep := ((Repeats.foldSep (string ",") fun a _ b => a ++ b).eq_done_iff hfirst).mpr
    ⟨_, _, hchain, rfl, rfl⟩
  have hwhole : ∃ log k', ((p.foldSep (string ",") fun a _ b => a ++ b).inEnv blanks).run env 0 4
      .initial = .done (.ok env 5 "endend") log k' :=
    ⟨_, _, Eval.bind_eq_done_iff.mpr ⟨_, _, _, [], hsep, rfl, rfl⟩⟩
  refine ⟨hp, hd, hwhole, ?_⟩
  obtain ⟨-, -, -, -, -, -, -, hparts, -⟩ := inEnv_distributes blanks id hp p p hd [p]
    (fun a _ b => a ++ b) (· ++ ·)
  exact hparts ▸ hwhole

end Parser

end Descent
