import Descent.Parser.Choice
import Descent.Parser.Token
import Descent.Proofs.Agreement

/-!
# Ordered choice, flat and nested

An ordered choice is one loop over a list. The same alternatives can be tried two at a
time, with the brackets on either side, or in choices inside a choice. Nothing but the
reports tells these apart: the same parsers run one after the other from the same place,
and the reply is the first success or the last failure, which is why an inner choice
cannot hide a failure that the outer one would report.

**The empty choice** has a failure of its own, which is lost as soon as there is an
alternative. A choice between choices is therefore flat only if there is an alternative in
each of them.

**What a choice reports** is said by `Parser.AllFail`, a list of alternatives that fail one
after the other, each in the state that the one before it left. Each of them has one event
of the choice right behind its own, and an alternative that does not fail has none
(`Parser.choice_flattens`).
-/

namespace Descent

/-- **What ends alike twice** ends alike. -/
theorem Eval.Agree.trans {α β : Type} {Q : α → β → Prop} {x y : Eval α} {z : Eval β}
    (h : Eval.Agree Eq x y) (h' : Eval.Agree Q y z) : Eval.Agree Q x z := by
  intro n k
  have hends := h n k
  have hends' := h' n k
  generalize x n k = ends at hends ⊢
  generalize y n k = ends' at hends hends'
  generalize z n k = ends'' at hends' ⊢
  cases hends with
  | done hab =>
    obtain rfl := hab
    cases hends' with
    | done hQ => exact .done hQ
  | fault =>
    cases hends' with
    | fault => exact .fault
  | exhausted =>
    cases hends' with
    | exhausted => exact .exhausted

namespace Parser

variable {α : Type} {p : Parser α} {ps : List (Parser α)} {env : Env} {n budget : Nat}
  {k k' : Knots}

/-! ## Two at a time -/

/-- What is done after a failure; a success stays as it is. -/
def recover (f : String → Option Nat → Eval (Reply α)) : Reply α → Eval (Reply α)
  | .ok env stop a => pure (.ok env stop a)
  | .fail message about => f message about

/-- The alternatives in brackets on the right: the first, or else the choice of the others. -/
def orElseRight : Parser α → List (Parser α) → Parser α
  | p, [] => p
  | p, q :: qs => p.orElse (orElseRight q qs)

/-- The alternatives in brackets on the left: the choice of the first ones, or else the last. -/
def orElseLeft (p : Parser α) (ps : List (Parser α)) : Parser α := ps.foldl orElse p

theorem orElse_run (p q : Parser α) (env : Env) (n : Nat) :
    (p.orElse q).run env n = p.run env n >>= recover fun message _ =>
      Eval.emit (.leftFailed n message) >>= fun _ => q.run env n :=
  congrArg (p.run env n >>= ·) (funext fun reply => by cases reply <;> rfl)

theorem firstOf_cons (index : Nat) (failure : Reply α) (p : Parser α) (ps : List (Parser α))
    (env : Env) (n : Nat) :
    firstOf index failure (p :: ps) env n = p.run env n >>= recover fun message about =>
      Eval.emit (.alternativeFailed index n message) >>= fun _ =>
        firstOf (index + 1) (.fail message about) ps env n :=
  congrArg (p.run env n >>= ·) (funext fun reply => by cases reply <;> rfl)

/-- After the same parser, what is done after a failure is compared. -/
theorem agree_recover {x : Eval (Reply α)} {f g : String → Option Nat → Eval (Reply α)}
    (h : ∀ message about, Eval.Agree Eq (f message about) (g message about)) :
    Eval.Agree Eq (x >>= recover f) (x >>= recover g) :=
  .bind_same fun reply => by
    cases reply with
    | ok env stop a => exact .refl _
    | fail message about => exact h message about

/-- Reporting a failure and handing it on is doing nothing. -/
theorem agree_recover_emit {x : Eval (Reply α)} (e : String → Event) :
    Eval.Agree Eq (x >>= recover fun message about =>
      Eval.emit (e message) >>= fun _ => pure (.fail message about)) x := by
  have h : Eval.Agree Eq (x >>= recover fun message about =>
      Eval.emit (e message) >>= fun _ => pure (.fail message about))
        (x >>= fun reply => pure reply) :=
    .bind_same fun reply => by
      cases reply with
      | ok env stop a => exact .refl _
      | fail message about => exact .emit_left _ (.refl _)
  rwa [Eval.bind_pure] at h

/-- **Recovering twice**: what is done after a failure may fail in turn. -/
theorem recover_recover (x : Eval (Reply α)) (f g : String → Option Nat → Eval (Reply α)) :
    (x >>= recover f) >>= recover g
      = x >>= recover fun message about => f message about >>= recover g := by
  refine (Eval.bind_assoc _ _ _).trans (congrArg (x >>= ·) (funext fun reply => ?_))
  cases reply with
  | ok env stop a => exact Eval.pure_bind _ _
  | fail message about => rfl

/-- **Alternatives in brackets on the right** are tried in the same order. -/
theorem firstOf_agree_right (index : Nat) (failure : Reply α) (p : Parser α)
    (ps : List (Parser α)) (env : Env) (n : Nat) :
    Eval.Agree Eq (firstOf index failure (p :: ps) env n) ((orElseRight p ps).run env n) := by
  induction ps generalizing index failure p with
  | nil =>
    rw [firstOf_cons]
    exact agree_recover_emit _
  | cons q qs ih =>
    rw [firstOf_cons, orElseRight, orElse_run]
    exact agree_recover fun message about =>
      .bind (.emit _ _) fun _ _ _ => ih (index + 1) (.fail message about) q

/-- **Alternatives in brackets on the left** are tried in the same order. The induction is on
the alternatives that are left, with the choice of those before them. -/
theorem recover_firstOf_agree_left (index : Nat) (p : Parser α) (ps : List (Parser α))
    (env : Env) (n : Nat) :
    Eval.Agree Eq (p.run env n >>= recover fun message about =>
        Eval.emit (.alternativeFailed index n message) >>= fun _ =>
          firstOf (index + 1) (.fail message about) ps env n)
      ((orElseLeft p ps).run env n) := by
  induction ps generalizing index p with
  | nil => exact agree_recover_emit _
  | cons q qs ih =>
    refine .trans ?_ (ih (index + 1) (p.orElse q))
    rw [orElse_run, recover_recover]
    refine agree_recover fun message about => ?_
    rw [firstOf_cons]
    show Eval.Agree Eq _ ((Eval.emit _ >>= fun _ => q.run env n) >>= _)
    rw [Eval.bind_assoc]
    exact .bind (.emit _ _) fun _ _ _ => .refl _

theorem choice_agree_right (p : Parser α) (ps : List (Parser α)) (env : Env) (n : Nat) :
    Eval.Agree Eq ((choice (p :: ps)).run env n) ((orElseRight p ps).run env n) :=
  firstOf_agree_right 0 (.fail "No alternative" (some n)) p ps env n

theorem choice_agree_left (p : Parser α) (ps : List (Parser α)) (env : Env) (n : Nat) :
    Eval.Agree Eq ((choice (p :: ps)).run env n) ((orElseLeft p ps).run env n) := by
  have hleft := recover_firstOf_agree_left 0 p ps env n
  rwa [← firstOf_cons 0 (.fail "No alternative" (some n))] at hleft

/-! ## Choices in a choice -/

/-- The number of an alternative is seen in reports alone, and so is the failure of no
alternative if there is one. -/
theorem firstOf_agree {failure failure' : Reply α} (h : ps ≠ [] ∨ failure = failure')
    (index index' : Nat) (env : Env) (n : Nat) :
    Eval.Agree Eq (firstOf index failure ps env n) (firstOf index' failure' ps env n) := by
  induction ps generalizing index index' failure failure' with
  | nil => exact h.resolve_left (absurd rfl ·) ▸ .refl _
  | cons p ps ih =>
    rw [firstOf_cons, firstOf_cons]
    exact agree_recover fun message about =>
      .bind (.emit _ _) fun _ _ _ => ih (.inr rfl) (index + 1) (index' + 1)

/-- **Two lists of alternatives**, one after the other. -/
theorem firstOf_append (index : Nat) (message : String) (about : Option Nat)
    (ps qs : List (Parser α)) (env : Env) (n : Nat) :
    firstOf index (.fail message about) (ps ++ qs) env n
      = firstOf index (.fail message about) ps env n >>= recover fun message about =>
          firstOf (index + ps.length) (.fail message about) qs env n := by
  induction ps generalizing index message about with
  | nil => exact (Eval.pure_bind _ _).symm
  | cons p ps ih =>
    rw [List.cons_append, firstOf_cons, firstOf_cons, recover_recover]
    refine congrArg (fun f => p.run env n >>= recover f) (funext fun m => funext fun a => ?_)
    rw [Eval.bind_assoc]
    refine congrArg (Eval.emit (.alternativeFailed index n m) >>= ·) (funext fun _ => ?_)
    rw [ih, List.length_cons, Nat.add_assoc, Nat.add_comm 1]

/-- **A choice between choices** tries what the choice between all of them tries. -/
theorem firstOf_choices_agree {pss : List (List (Parser α))} (h : ∀ ps ∈ pss, ps ≠ [])
    (index index' : Nat) (message : String) (about : Option Nat) (env : Env) (n : Nat) :
    Eval.Agree Eq (firstOf index (.fail message about) (pss.map choice) env n)
      (firstOf index' (.fail message about) pss.flatten env n) := by
  induction pss generalizing index index' message about with
  | nil => exact .refl _
  | cons ps pss ih =>
    obtain ⟨hps, hpss⟩ := List.forall_mem_cons.mp h
    rw [List.map_cons, firstOf_cons, List.flatten_cons, firstOf_append]
    refine .bind (firstOf_agree (.inl hps) 0 index' env n) fun reply reply' heq => ?_
    obtain rfl := heq
    cases reply with
    | ok env' stop a => exact .refl _
    | fail m a => exact .emit_left _ (ih hpss _ _ m a)

/-! ## What is reported -/

/-- An alternative that failed, with what it reported. -/
structure Attempt where
  log : List Event
  message : String
  about : Option Nat

/-- **Alternatives fail one after the other**, all in the same place, and each in the state
that the one before it left. -/
inductive AllFail (env : Env) (n budget : Nat) :
    Knots → List (Parser α) → List Attempt → Knots → Prop where
  | nil (k : Knots) : AllFail env n budget k [] [] k
  | cons {p : Parser α} {ps : List (Parser α)} {attempts : List Attempt} {k k₁ k' : Knots}
      {log : List Event} {message : String} {about : Option Nat}
      (first : p.run env n budget k = .done (.fail message about) log k₁)
      (rest : AllFail env n budget k₁ ps attempts k') :
      AllFail env n budget k (p :: ps) (⟨log, message, about⟩ :: attempts) k'

/-- **The reports of alternatives that failed**, numbered from `index`: behind what an
alternative reported itself, one event with its number, the place where it began and its
message. -/
def backtracking (n : Nat) : Nat → List Attempt → List Event
  | _, [] => []
  | index, a :: attempts =>
    a.log ++ .alternativeFailed index n a.message :: backtracking n (index + 1) attempts

/-- The failure that is reported when there are no more alternatives. -/
def lastFailure (failure : Reply α) (attempts : List Attempt) : Reply α :=
  attempts.foldl (fun _ a => .fail a.message a.about) failure

/-- The reply of a run is a failure. -/
def Fails (p : Parser α) (env : Env) (n budget : Nat) (k : Knots) : Prop :=
  ∃ message about log k', p.run env n budget k = .done (.fail message about) log k'

/-- An alternative that fails is passed over, and that is reported. -/
theorem firstOf_of_failed {log : List Event} {message : String} {about : Option Nat}
    (h : p.run env n budget k = .done (.fail message about) log k') (index : Nat)
    (failure : Reply α) (ps : List (Parser α)) :
    firstOf index failure (p :: ps) env n budget k
      = (firstOf (index + 1) (.fail message about) ps env n budget k').after
          (log ++ [.alternativeFailed index n message]) := by
  rw [firstOf_cons, Eval.bind_apply, h]
  show ((Outcome.after _ _).after log : Outcome (Reply α)) = _
  rw [Outcome.after_after]

/-- An alternative that does not fail ends the choice. -/
theorem firstOf_of_not_fails (h : ¬ p.Fails env n budget k) (index : Nat) (failure : Reply α)
    (ps : List (Parser α)) :
    firstOf index failure (p :: ps) env n budget k = p.run env n budget k := by
  rw [firstOf_cons, Eval.bind_apply]
  cases hrun : p.run env n budget k with
  | done reply log k' =>
    cases reply with
    | ok env' stop a => exact congrArg (Outcome.done _ · k') (List.append_nil log)
    | fail message about => exact absurd ⟨message, about, log, k', hrun⟩ h
  | fault cause log k' => rfl
  | exhausted => rfl

/-- **How a choice runs.** Some of its alternatives fail, and the next one does not and ends
the choice; or all of them fail. The induction is on the alternatives. -/
theorem firstOf_eq (index : Nat) (failure : Reply α) (ps : List (Parser α)) (env : Env)
    (n budget : Nat) (k : Knots) :
    (∃ failed p rest attempts k₁, ps = failed ++ p :: rest
        ∧ AllFail env n budget k failed attempts k₁ ∧ ¬ p.Fails env n budget k₁
        ∧ firstOf index failure ps env n budget k
          = (p.run env n budget k₁).after (backtracking n index attempts))
      ∨ ∃ attempts k₁, AllFail env n budget k ps attempts k₁
        ∧ firstOf index failure ps env n budget k
          = .done (lastFailure failure attempts) (backtracking n index attempts) k₁ := by
  induction ps generalizing index failure k with
  | nil => exact .inr ⟨[], k, .nil k, rfl⟩
  | cons p ps ih =>
    by_cases hp : p.Fails env n budget k
    · obtain ⟨message, about, log, k₁, hrun⟩ := hp
      have hevents : ∀ attempts, log ++ [.alternativeFailed index n message]
          ++ backtracking n (index + 1) attempts
            = backtracking n index (⟨log, message, about⟩ :: attempts) := fun attempts => by
        rw [backtracking, List.append_assoc]
        rfl
      rw [firstOf_of_failed hrun]
      obtain ⟨failed, q, rest, attempts, k₂, rfl, hfailed, hq, heq⟩ | ⟨attempts, k₂, hall, heq⟩ :=
        ih (index + 1) (.fail message about) k₁
      · refine .inl ⟨p :: failed, q, rest, _, k₂, rfl, .cons hrun hfailed, hq, ?_⟩
        rw [heq, Outcome.after_after, hevents]
      · refine .inr ⟨_, k₂, .cons hrun hall, ?_⟩
        rw [heq, Outcome.after, hevents]
        rfl
    · refine .inl ⟨[], p, ps, [], k, rfl, .nil k, hp, ?_⟩
      rw [firstOf_of_not_fails hp, backtracking, Outcome.after_nil]

theorem lastFailure_append (failure : Reply α) (attempts : List Attempt) (last : Attempt) :
    lastFailure failure (attempts ++ [last]) = .fail last.message last.about := by
  rw [lastFailure, List.foldl_append]
  rfl

/-- **Ordered choice is flat.** A choice ends as its alternatives do that are tried two at a
time, in brackets on the right or on the left; and a choice between choices that have
alternatives, as the choice between all of these: the same reply or fault, and the same
state. A choice reports for each alternative that fails, in order, one event behind the
events of that alternative and before those of the next, and nothing else; its reply is that
of the first alternative that does not fail, or of the last one. -/
theorem choice_flattens (p : Parser α) (ps : List (Parser α)) {pss : List (List (Parser α))}
    (hpss : ∀ qs ∈ pss, qs ≠ []) (env : Env) (n : Nat) :
    Eval.Agree Eq ((choice (p :: ps)).run env n) ((orElseRight p ps).run env n)
    ∧ Eval.Agree Eq ((choice (p :: ps)).run env n) ((orElseLeft p ps).run env n)
    ∧ Eval.Agree Eq ((choice (pss.map choice)).run env n) ((choice pss.flatten).run env n)
    ∧ ∀ budget k,
      (∃ failed q rest attempts k₁, p :: ps = failed ++ q :: rest
        ∧ AllFail env n budget k failed attempts k₁ ∧ ¬ q.Fails env n budget k₁
        ∧ (choice (p :: ps)).run env n budget k
          = (q.run env n budget k₁).after (backtracking n 0 attempts))
      ∨ ∃ attempts last k₁, AllFail env n budget k (p :: ps) (attempts ++ [last]) k₁
        ∧ (choice (p :: ps)).run env n budget k
          = .done (.fail last.message last.about) (backtracking n 0 (attempts ++ [last])) k₁ := by
  refine ⟨choice_agree_right p ps env n, choice_agree_left p ps env n,
    firstOf_choices_agree hpss 0 0 "No alternative" (some n) env n, fun budget k => ?_⟩
  refine (firstOf_eq 0 (.fail "No alternative" (some n)) (p :: ps) env n budget k).imp_right ?_
  rintro ⟨attempts, k₁, hall, heq⟩
  obtain rfl | ⟨attempts, last, rfl⟩ := List.eq_nil_or_concat attempts
  · exact nomatch hall
  · rw [List.concat_eq_append] at hall heq
    exact ⟨attempts, last, k₁, hall, heq.trans (by rw [lastFailure_append])⟩

/-- Letters in two choices: the one that is found is the third of all, and the two before it
are reported. -/
theorem choice_flattens_letters :
    let letters := [[string "a", string "b"], [string "c"]]
    (∀ qs ∈ letters, qs ≠ [])
    ∧ (∃ log, (choice (letters.map choice)).run (Env.new ['c']) 0 0 .initial
        = .done (.ok (Env.new ['c']) 1 "c") log .initial)
    ∧ (choice letters.flatten).run (Env.new ['c']) 0 0 .initial
      = .done (.ok (Env.new ['c']) 1 "c") [.alternativeFailed 0 0 "Does not match a",
          .alternativeFailed 1 0 "Does not match b"] .initial := by
  intro letters
  have hletters : ∀ qs ∈ letters, qs ≠ [] := by simp [letters]
  have hflat : (choice letters.flatten).run (Env.new ['c']) 0 0 .initial
      = .done (.ok (Env.new ['c']) 1 "c") [.alternativeFailed 0 0 "Does not match a",
          .alternativeFailed 1 0 "Does not match b"] .initial := rfl
  obtain ⟨-, -, hnested, -⟩ := choice_flattens (string "a") [] hletters (Env.new ['c']) 0
  obtain ⟨reply, log, rfl, hdone⟩ := hnested.exists_left hflat
  exact ⟨hletters, ⟨log, hdone⟩, hflat⟩

end Parser

end Descent
