import Descent.Proofs.Factoring

/-!
# Negation and ordered choice

A negative lookahead of a choice is the sequence of the negative lookaheads of its
alternatives: none of them matches if and only if the first does not match, and then the
second does not, and so on. The two are the same as far as they can be told apart, by their
replies, their faults and the state that they leave (`Parser.choice_notAhead`); the choice
reports its alternatives, and the sequence does not.

**Why the brackets do not matter.** Two alternatives are the whole case
(`Parser.orElse_notAhead_agree`). A choice is made of two at a time with the brackets on the
left, and so is the sequence, so the law for two is applied once for each alternative.

**Which alternatives fail.** Each alternative is tried in the state that those before it
left, and that is where it has to fail (`Parser.AllFail`). For parsers that reply the same
in every state that a run leaves, as those do that the library builds, this comes down to
each of them failing by itself (`Parser.allFail_iff`).
-/

namespace Descent

/-- What is done with an earlier log in front is done without it. -/
theorem Outcome.after_eq_done_iff {α : Type} {o : Outcome α} {earlier log : List Event} {a : α}
    {k : Knots} :
    o.after earlier = .done a log k ↔ ∃ log', o = .done a log' k ∧ log = earlier ++ log' := by
  cases o with
  | done a' log' k' => simp [after, eq_comm, and_assoc, and_comm]
  | fault cause log' k' => simp [after]
  | exhausted => simp [after]

/-- **What transforms a value is done** where the value is. -/
theorem Eval.bind_pure_eq_done_iff {α β : Type} {x : Eval α} {f : α → β} {n : Nat} {k k' : Knots}
    {b : β} {log : List Event} :
    (x >>= fun a => pure (f a)) n k = .done b log k' ↔ ∃ a, x n k = .done a log k' ∧ b = f a := by
  rw [bind_apply]
  cases x n k with
  | done a log' k₁ => simp [Outcome.after, eq_comm, and_comm]
  | fault cause log' k₁ => simp
  | exhausted => simp

namespace Parser

variable {α : Type} {p q : Parser α} {ps : List (Parser α)} {env env' : Env} {n budget : Nat}
  {k k' : Knots}

/-- The reply of a run is a success. -/
def Succeeds (p : Parser α) (env : Env) (n budget : Nat) (k : Knots) : Prop :=
  ∃ env' stop a log k', p.run env n budget k = .done (.ok env' stop a) log k'

theorem Fails.not_succeeds (h : p.Fails env n budget k) : ¬ p.Succeeds env n budget k := by
  obtain ⟨message, about, log, k', hfail⟩ := h
  rintro ⟨env', stop, a, log', k'', hok⟩
  exact absurd (hfail.symm.trans hok) (by simp)

/-! ## What a negative lookahead replies -/

/-- What a negative lookahead makes of a reply. -/
def negated (env : Env) (n : Nat) : Reply α → Reply Unit
  | .ok .. => .fail "Unexpected match" (some n)
  | .fail .. => .ok env n ()

theorem notAhead_run (p : Parser α) (env : Env) (n : Nat) :
    p.notAhead.run env n = p.run env n >>= fun reply => pure (negated env n reply) :=
  congrArg (p.run env n >>= ·) (funext fun reply => by cases reply <;> rfl)

/-- **A negative lookahead is done** where its parser is, in the same state and with the
same events. -/
theorem notAhead_eq_done_iff {reply : Reply Unit} {log : List Event} :
    p.notAhead.run env n budget k = .done reply log k'
      ↔ ∃ inner, p.run env n budget k = .done inner log k' ∧ reply = negated env n inner := by
  rw [notAhead_run]
  exact Eval.bind_pure_eq_done_iff

/-- It succeeds where its parser fails, and stays where it is, -/
theorem notAhead_eq_ok_iff {log : List Event} :
    p.notAhead.run env n budget k = .done (.ok env n ()) log k'
      ↔ ∃ message about, p.run env n budget k = .done (.fail message about) log k' := by
  rw [notAhead_eq_done_iff]
  constructor
  · rintro ⟨inner, hdone, hreply⟩
    cases inner with
    | ok env' stop a => exact absurd hreply (by simp [negated])
    | fail message about => exact ⟨message, about, hdone⟩
  · rintro ⟨message, about, hdone⟩
    exact ⟨_, hdone, rfl⟩

/-- and fails where its parser succeeds. -/
theorem notAhead_eq_fail_iff {log : List Event} :
    p.notAhead.run env n budget k = .done (.fail "Unexpected match" (some n)) log k'
      ↔ ∃ env' stop a, p.run env n budget k = .done (.ok env' stop a) log k' := by
  rw [notAhead_eq_done_iff]
  constructor
  · rintro ⟨inner, hdone, hreply⟩
    cases inner with
    | ok env' stop a => exact ⟨env', stop, a, hdone⟩
    | fail message about => exact absurd hreply (by simp [negated])
  · rintro ⟨env', stop, a, hdone⟩
    exact ⟨_, hdone, rfl⟩

/-- There are no other replies. -/
theorem notAhead_ok_or_fail {reply : Reply Unit} {log : List Event}
    (h : p.notAhead.run env n budget k = .done reply log k') :
    reply = .ok env n () ∨ reply = .fail "Unexpected match" (some n) := by
  obtain ⟨inner, -, rfl⟩ := notAhead_eq_done_iff.mp h
  cases inner with
  | ok env' stop a => exact .inr rfl
  | fail message about => exact .inl rfl

/-- What a lookahead makes of a reply. -/
def rewound (n : Nat) : Reply α → Reply α
  | .ok env _ a => .ok env n a
  | .fail message about => .fail message about

theorem lookahead_eq_done_iff {reply : Reply α} {log : List Event} :
    p.lookahead.run env n budget k = .done reply log k'
      ↔ ∃ inner, p.run env n budget k = .done inner log k' ∧ reply = rewound n inner := by
  have hrun : p.lookahead.run env n = p.run env n >>= fun reply => pure (rewound n reply) :=
    congrArg (p.run env n >>= ·) (funext fun reply => by cases reply <;> rfl)
  rw [hrun]
  exact Eval.bind_pure_eq_done_iff

/-- A lookahead succeeds where its parser does, and stays where it is, -/
theorem lookahead_eq_ok_iff {log : List Event} {a : α} :
    p.lookahead.run env n budget k = .done (.ok env' n a) log k'
      ↔ ∃ stop, p.run env n budget k = .done (.ok env' stop a) log k' := by
  rw [lookahead_eq_done_iff]
  constructor
  · rintro ⟨inner, hdone, hreply⟩
    cases inner with
    | ok env₁ stop b =>
      obtain ⟨rfl, -, rfl⟩ := Reply.ok.inj hreply
      exact ⟨stop, hdone⟩
    | fail message about => exact absurd hreply (by simp [rewound])
  · rintro ⟨stop, hdone⟩
    exact ⟨_, hdone, rfl⟩

/-- and fails as its parser does. -/
theorem lookahead_eq_fail_iff {log : List Event} {message : String} {about : Option Nat} :
    p.lookahead.run env n budget k = .done (.fail message about) log k'
      ↔ p.run env n budget k = .done (.fail message about) log k' := by
  rw [lookahead_eq_done_iff]
  constructor
  · rintro ⟨inner, hdone, hreply⟩
    cases inner with
    | ok env₁ stop b => exact absurd hreply (by simp [rewound])
    | fail message' about' => exact hreply ▸ hdone
  · exact fun hdone => ⟨_, hdone, rfl⟩

/-- **A negative lookahead of a negative lookahead** succeeds where the lookahead does, -/
theorem notAhead_notAhead_eq_ok_iff {log : List Event} :
    p.notAhead.notAhead.run env n budget k = .done (.ok env n ()) log k'
      ↔ ∃ env' a, p.lookahead.run env n budget k = .done (.ok env' n a) log k' := by
  rw [notAhead_eq_ok_iff]
  constructor
  · rintro ⟨message, about, hfail⟩
    obtain ⟨inner, hdone, hreply⟩ := notAhead_eq_done_iff.mp hfail
    cases inner with
    | ok env' stop a => exact ⟨env', a, lookahead_eq_ok_iff.mpr ⟨stop, hdone⟩⟩
    | fail message' about' => exact absurd hreply (by simp [negated])
  · rintro ⟨env', a, hok⟩
    obtain ⟨stop, hdone⟩ := lookahead_eq_ok_iff.mp hok
    exact ⟨_, _, notAhead_eq_fail_iff.mpr ⟨env', stop, a, hdone⟩⟩

/-- and fails where it fails. -/
theorem notAhead_notAhead_eq_fail_iff {log : List Event} :
    p.notAhead.notAhead.run env n budget k = .done (.fail "Unexpected match" (some n)) log k'
      ↔ ∃ message about, p.lookahead.run env n budget k = .done (.fail message about) log k' := by
  rw [notAhead_eq_fail_iff]
  constructor
  · rintro ⟨env', stop, u, hok⟩
    obtain ⟨inner, hdone, hreply⟩ := notAhead_eq_done_iff.mp hok
    cases inner with
    | ok env₁ stop₁ a => exact absurd hreply (by simp [negated])
    | fail message about => exact ⟨message, about, lookahead_eq_fail_iff.mpr hdone⟩
  · rintro ⟨message, about, hfail⟩
    exact ⟨env, n, (), notAhead_eq_ok_iff.mpr ⟨message, about, lookahead_eq_fail_iff.mp hfail⟩⟩

/-! ## Two at a time -/

/-- Parsers that end alike are negated alike. -/
theorem notAhead_agree (h : Eval.Agree Eq (p.run env n) (q.run env n)) :
    Eval.Agree Eq (p.notAhead.run env n) (q.notAhead.run env n) := by
  rw [notAhead_run, notAhead_run]
  exact .bind h fun _ _ heq => heq ▸ .refl _

/-- **Neither of two**: the first does not match, and then the second does not. -/
theorem orElse_notAhead_agree (p q : Parser α) (env : Env) (n : Nat) :
    Eval.Agree Eq ((p.orElse q).notAhead.run env n)
      ((p.notAhead.seqRight q.notAhead).run env n) := by
  have hright : (p.notAhead.seqRight q.notAhead).run env n = p.run env n >>= fun reply =>
      match negated env n reply with
      | .ok env stop _ => q.notAhead.run env stop
      | .fail message about => pure (.fail message about) := by
    show p.notAhead.run env n >>= _ = _
    rw [notAhead_run, Eval.bind_assoc]
    refine congrArg (p.run env n >>= ·) (funext fun reply => ?_)
    rw [Eval.pure_bind]
    cases reply <;> rfl
  rw [hright, notAhead_run, orElse_run, Eval.bind_assoc]
  refine .bind_same fun reply => ?_
  cases reply with
  | ok env' stop a => exact .refl _
  | fail message about =>
    show Eval.Agree Eq ((Eval.emit _ >>= fun _ => q.run env n) >>= _) (q.notAhead.run env n)
    rw [Eval.bind_assoc, notAhead_run]
    exact .emit_left _ (.refl _)

/-- What comes first in a sequence may be replaced by what ends alike. -/
theorem seqRight_agree {β γ : Type} {p q : Parser β} (h : Eval.Agree Eq (p.run env n) (q.run env n))
    (r : Parser γ) : Eval.Agree Eq ((p.seqRight r).run env n) ((q.seqRight r).run env n) :=
  .bind h fun _ _ heq => heq ▸ .refl _

theorem foldl_seqRight_agree {p q : Parser α} (h : Eval.Agree Eq (p.run env n) (q.run env n))
    (rs : List (Parser α)) :
    Eval.Agree Eq ((rs.foldl seqRight p).run env n) ((rs.foldl seqRight q).run env n) := by
  induction rs generalizing p q with
  | nil => exact h
  | cons r rs ih => exact ih (seqRight_agree h r)

/-- **None of the alternatives in brackets on the left.** The induction is on the
alternatives that are left, with the choice of those before them. -/
theorem orElseLeft_notAhead_agree (p : Parser α) (ps : List (Parser α)) (env : Env) (n : Nat) :
    Eval.Agree Eq ((orElseLeft p ps).notAhead.run env n)
      (((ps.map notAhead).foldl seqRight p.notAhead).run env n) := by
  induction ps generalizing p with
  | nil => exact .refl _
  | cons q qs ih =>
    exact (ih (p.orElse q)).trans (foldl_seqRight_agree (orElse_notAhead_agree p q env n) _)

/-! ## Which alternatives fail -/

/-- **A choice fails if its alternatives do**, one after the other. -/
theorem firstOf_fails_iff (index : Nat) (message : String) (about : Option Nat) :
    (∃ m a log k', firstOf index (.fail message about) ps env n budget k
        = .done (.fail m a) log k')
      ↔ ∃ attempts k', AllFail env n budget k ps attempts k' := by
  induction ps generalizing index message about k with
  | nil => exact iff_of_true ⟨message, about, [], k, rfl⟩ ⟨[], k, .nil k⟩
  | cons p ps ih =>
    by_cases hp : p.Fails env n budget k
    · obtain ⟨m, a, log, k₁, hrun⟩ := hp
      constructor
      · rintro ⟨m', a', log', k', hdone⟩
        rw [firstOf_of_failed hrun] at hdone
        obtain ⟨log₂, hrest, -⟩ := Outcome.after_eq_done_iff.mp hdone
        obtain ⟨attempts, k₂, hall⟩ := (ih ..).mp ⟨m', a', log₂, k', hrest⟩
        exact ⟨_, k₂, .cons hrun hall⟩
      · rintro ⟨_, k₂, hall⟩
        cases hall with
        | cons first rest =>
          obtain ⟨-, -, rfl⟩ := Outcome.done.inj (hrun.symm.trans first)
          obtain ⟨m', a', log', k', hdone⟩ := (ih (index + 1) m a).mpr ⟨_, k₂, rest⟩
          exact ⟨m', a', _, k', (firstOf_of_failed hrun ..).trans (congrArg _ hdone)⟩
    · rw [firstOf_of_not_fails hp]
      refine iff_of_false hp ?_
      rintro ⟨_, k₂, hall⟩
      cases hall with
      | cons first => exact hp ⟨_, _, _, _, first⟩

/-- **A choice succeeds if one of its alternatives does** after those before it failed. -/
theorem firstOf_succeeds_iff (index : Nat) (message : String) (about : Option Nat) :
    (∃ env' stop a log k', firstOf index (.fail message about) ps env n budget k
        = .done (.ok env' stop a) log k')
      ↔ ∃ failed q rest attempts k₁, ps = failed ++ q :: rest
          ∧ AllFail env n budget k failed attempts k₁ ∧ q.Succeeds env n budget k₁ := by
  induction ps generalizing index message about k with
  | nil =>
    refine iff_of_false ?_ ?_
    · rintro ⟨env', stop, a, log, k', hdone⟩
      exact absurd (Outcome.done.inj hdone).1 (by simp)
    · rintro ⟨failed, q, rest, attempts, k₁, h, -, -⟩
      exact absurd h (by simp)
  | cons p ps ih =>
    by_cases hp : p.Fails env n budget k
    · obtain ⟨m, a, log, k₁, hrun⟩ := hp
      constructor
      · rintro ⟨env', stop, a', log', k', hdone⟩
        rw [firstOf_of_failed hrun] at hdone
        obtain ⟨log₂, hrest, -⟩ := Outcome.after_eq_done_iff.mp hdone
        obtain ⟨failed, q, rest, attempts, k₂, rfl, hall, hq⟩ :=
          (ih ..).mp ⟨env', stop, a', log₂, k', hrest⟩
        exact ⟨p :: failed, q, rest, _, k₂, rfl, .cons hrun hall, hq⟩
      · rintro ⟨failed, q, rest, attempts, k₂, hps, hall, hq⟩
        cases hall with
        | nil =>
          obtain ⟨rfl, rfl⟩ := List.cons.inj hps
          exact absurd hq (Fails.not_succeeds ⟨m, a, log, k₁, hrun⟩)
        | cons first rest' =>
          obtain ⟨rfl, rfl⟩ := List.cons.inj hps
          obtain ⟨-, -, rfl⟩ := Outcome.done.inj (hrun.symm.trans first)
          obtain ⟨env', stop, a', log', k', hdone⟩ :=
            (ih (index + 1) m a).mpr ⟨_, q, rest, _, k₂, rfl, rest', hq⟩
          exact ⟨env', stop, a', _, k', (firstOf_of_failed hrun ..).trans (congrArg _ hdone)⟩
    · rw [firstOf_of_not_fails hp]
      constructor
      · exact fun hsucceeds => ⟨[], p, ps, [], k, rfl, .nil k, hsucceeds⟩
      · rintro ⟨failed, q, rest, attempts, k₂, hps, hall, hq⟩
        cases hall with
        | nil => exact (List.cons.inj hps).1 ▸ hq
        | cons first =>
          obtain ⟨rfl, rfl⟩ := List.cons.inj hps
          exact absurd ⟨_, _, _, _, first⟩ hp

/-- **What fails in a state, fails in every state that runs leave behind it.** -/
theorem Paired.fails_iff (hp : p.Paired (.below k.nextScope) p)
    (henv : env.Paired (.below k.nextScope) env) (hk : k.Keeps k') :
    p.Fails env n budget k' ↔ p.Fails env n budget k := by
  have hends := hp le_rfl henv n budget k' k hk.paired
  unfold Fails
  generalize p.run env n budget k' = ends at hends ⊢
  generalize p.run env n budget k = ends' at hends ⊢
  cases hends with
  | done _ _ _ _ values => cases values <;> simp
  | fault => simp
  | exhausted => simp

/-- **Parsers that reply the same again** fail one after the other if each of them fails by
itself. -/
theorem allFail_iff (hps : ∀ q ∈ ps, q.Paired (.below k.nextScope) q)
    (henv : env.Paired (.below k.nextScope) env) (hk : k.Keeps k') :
    (∃ attempts k'', AllFail env n budget k' ps attempts k'')
      ↔ ∀ q ∈ ps, q.Fails env n budget k := by
  induction ps generalizing k' with
  | nil => exact iff_of_true ⟨[], k', .nil k'⟩ fun q hq => absurd hq List.not_mem_nil
  | cons p ps ih =>
    obtain ⟨hp, hps⟩ := List.forall_mem_cons.mp hps
    rw [List.forall_mem_cons, ← hp.fails_iff henv hk]
    constructor
    · rintro ⟨_, k'', hall⟩
      cases hall with
      | cons first rest =>
        exact ⟨⟨_, _, _, _, first⟩, (ih hps (hp.run_keeps henv hk first)).mp ⟨_, k'', rest⟩⟩
    · rintro ⟨⟨message, about, log, k₁, first⟩, hrest⟩
      obtain ⟨attempts, k'', hall⟩ := (ih hps (hp.run_keeps henv hk first)).mpr hrest
      exact ⟨_, k'', .cons first hall⟩

/-! ## De Morgan -/

/-- The negative lookahead of a choice succeeds where all the alternatives fail, -/
theorem choice_notAhead_ok_iff :
    (∃ log k', (choice ps).notAhead.run env n budget k = .done (.ok env n ()) log k')
      ↔ ∃ attempts k', AllFail env n budget k ps attempts k' := by
  rw [← firstOf_fails_iff 0 "No alternative" (some n)]
  constructor
  · rintro ⟨log, k', hok⟩
    obtain ⟨message, about, hfail⟩ := notAhead_eq_ok_iff.mp hok
    exact ⟨message, about, log, k', hfail⟩
  · rintro ⟨message, about, log, k', hfail⟩
    exact ⟨log, k', notAhead_eq_ok_iff.mpr ⟨message, about, hfail⟩⟩

/-- and fails where one succeeds after those before it failed. -/
theorem choice_notAhead_fail_iff :
    (∃ log k', (choice ps).notAhead.run env n budget k
        = .done (.fail "Unexpected match" (some n)) log k')
      ↔ ∃ failed q rest attempts k₁, ps = failed ++ q :: rest
          ∧ AllFail env n budget k failed attempts k₁ ∧ q.Succeeds env n budget k₁ := by
  rw [← firstOf_succeeds_iff 0 "No alternative" (some n)]
  constructor
  · rintro ⟨log, k', hfail⟩
    obtain ⟨env', stop, a, hok⟩ := notAhead_eq_fail_iff.mp hfail
    exact ⟨env', stop, a, log, k', hok⟩
  · rintro ⟨env', stop, a, log, k', hok⟩
    exact ⟨log, k', notAhead_eq_fail_iff.mpr ⟨env', stop, a, hok⟩⟩

/-- **None of the alternatives matches ahead.** The negative lookahead of a choice ends as
the sequence of the negative lookaheads does: with the same reply or the same fault, and in
the same state.

* It succeeds, where it began and in the environment of the call, if and only if all the
  alternatives fail, each in the state that those before it left; for parsers that reply the
  same again, if each of them fails by itself.
* It fails, with one message and about the position where it began, if and only if one of
  the alternatives succeeds after those before it failed. There is no other reply.
* A negative lookahead of a negative lookahead succeeds where the lookahead does, and fails
  where it fails. -/
theorem choice_notAhead (p : Parser α) (ps : List (Parser α)) (env : Env) (n : Nat) :
    Eval.Agree Eq ((choice (p :: ps)).notAhead.run env n)
      (((ps.map notAhead).foldl seqRight p.notAhead).run env n)
    ∧ (∀ budget k,
      ((∃ log k', (choice (p :: ps)).notAhead.run env n budget k = .done (.ok env n ()) log k')
        ↔ ∃ attempts k', AllFail env n budget k (p :: ps) attempts k')
      ∧ ((∃ log k', (choice (p :: ps)).notAhead.run env n budget k
            = .done (.fail "Unexpected match" (some n)) log k')
        ↔ ∃ failed q rest attempts k₁, p :: ps = failed ++ q :: rest
            ∧ AllFail env n budget k failed attempts k₁ ∧ q.Succeeds env n budget k₁)
      ∧ (∀ reply log k', (choice (p :: ps)).notAhead.run env n budget k = .done reply log k' →
          reply = .ok env n () ∨ reply = .fail "Unexpected match" (some n))
      ∧ ((∀ q ∈ p :: ps, q.Paired (.below k.nextScope) q) →
          env.Paired (.below k.nextScope) env →
          ((∃ log k', (choice (p :: ps)).notAhead.run env n budget k
              = .done (.ok env n ()) log k')
            ↔ ∀ q ∈ p :: ps, q.Fails env n budget k)))
    ∧ ∀ budget k log k',
      (p.notAhead.notAhead.run env n budget k = .done (.ok env n ()) log k'
        ↔ ∃ env' a, p.lookahead.run env n budget k = .done (.ok env' n a) log k')
      ∧ (p.notAhead.notAhead.run env n budget k
            = .done (.fail "Unexpected match" (some n)) log k'
        ↔ ∃ message about, p.lookahead.run env n budget k = .done (.fail message about) log k') := by
  refine ⟨?_, fun budget k => ⟨?_, ?_, fun reply log k' => notAhead_ok_or_fail, ?_⟩,
    fun budget k log k' => ⟨?_, ?_⟩⟩
  · exact (notAhead_agree (choice_agree_left p ps env n)).trans
      (orElseLeft_notAhead_agree p ps env n)
  · exact choice_notAhead_ok_iff
  · exact choice_notAhead_fail_iff
  · intro hps henv
    exact choice_notAhead_ok_iff.trans (allFail_iff hps henv (.refl k))
  · exact notAhead_notAhead_eq_ok_iff
  · exact notAhead_notAhead_eq_fail_iff

/-- Letters by a recursive grammar, or one letter where nothing is skipped any more. Neither
is there, so each of them fails by itself; and then both negations succeed, the second where
what the first has tied is tied and in the environment of the call. -/
theorem choice_notAhead_letters :
    let env : Env := ⟨[' ', 'b'], some (string " ").scan, none⟩
    let p := (Construction.letters 0).toParser
    let q := Construction.forgetful.seqRight (string "a")
    (∀ r ∈ [p, q], r.Fails env 0 3 .initial)
    ∧ (∃ log k', (choice [p, q]).notAhead.run env 0 3 .initial = .done (.ok env 0 ()) log k')
    ∧ ∃ log k', (p.notAhead.seqRight q.notAhead).run env 0 3 .initial
      = .done (.ok env 0 ()) log k' := by
  intro env p q
  have hletters : (Construction.letters 0).Alike (.below 1) (Construction.letters 0) :=
    Construction.letters_alike ⟨rfl, Nat.one_pos⟩
  have hp : p.Paired (.below 1) p := hletters.toParser
  have hq : q.Paired (.below 1) q := .seqRight (Construction.forgetful_paired _) (.token _ _)
  have hpaired : ∀ r ∈ [p, q], r.Paired (.below 1) r := by
    simp only [List.forall_mem_cons]
    exact ⟨hp, hq, fun r hr => absurd hr List.not_mem_nil⟩
  have henv : env.Paired (.below 1) env := ⟨rfl, .some (PairedOn.scan (.token _ _)), .none⟩
  have hfails : ∀ r ∈ [p, q], r.Fails env 0 3 .initial := by
    simp only [List.forall_mem_cons]
    exact ⟨⟨_, _, _, _, rfl⟩, ⟨_, _, _, _, rfl⟩, fun r hr => absurd hr List.not_mem_nil⟩
  obtain ⟨hagree, hreplies, -⟩ := choice_notAhead p [q] env 0
  obtain ⟨-, -, -, hiff⟩ := hreplies 3 .initial
  obtain ⟨log, k', hnone⟩ := (hiff hpaired henv).mpr hfails
  obtain ⟨reply, log', rfl, hsequence⟩ := hagree.exists_right hnone
  exact ⟨hfails, ⟨log, k', hnone⟩, log', k', hsequence⟩

end Parser

end Descent
