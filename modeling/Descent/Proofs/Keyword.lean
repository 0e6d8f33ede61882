import Descent.Proofs.Following

/-!
# Where keywords end

A keyword is its text, and a boundary where the text ends. `Parser.MayEnd` lists what makes
a boundary: that no parser tells what may follow, that nothing of the subject is left, that
something is skipped there, or that the parser for what may follow succeeds there.
`Parser.GoesOn` is the other case. The skip and what may follow are looked at with nothing to skip
and nothing to follow, whatever the environment of the keyword, and at the position where
the text ended, not where a skip from there ends.

**One after the other.** A parser may tie recursive grammars, so each of the three runs
begins where the one before left the state: the text of the keyword with its own skip, the
skip behind the keyword, and last what may follow. Both cases tell the state that is left,
and with that, `Parser.EndsOnBoundary` says for a keyword what it succeeds with and what it
fails with, at every budget and from every state. Whether a keyword returns is not decided
by its text, since either parser may not return; so its failure is told as its success is,
and not as the absence of success.

**What may follow is a restriction.** Where nothing is said about it, a keyword is its text.
So setting a parser for it takes successes away and changes none, and what failed before
fails as before.
-/

namespace Descent

/-- **The evaluation comes to a value**, with what is known of recursive grammars then;
nothing is said about events. -/
def Eval.ComesTo {α : Type} (x : Eval α) (budget : Nat) (k : Knots) (a : α) (k' : Knots) : Prop :=
  ∃ log, x budget k = .done a log k'

namespace Eval

variable {α β : Type} {x : Eval α} {f : α → Eval β} {budget : Nat} {k k' k'' : Knots}

@[simp] theorem comesTo_pure_iff {a b : α} :
    (pure a : Eval α).ComesTo budget k b k' ↔ b = a ∧ k' = k := by
  constructor
  · rintro ⟨log, ⟨⟩⟩
    exact ⟨rfl, rfl⟩
  · rintro ⟨rfl, rfl⟩
    exact ⟨[], rfl⟩

@[simp] theorem comesTo_emit_iff {e : Event} {u : Unit} :
    (Eval.emit e).ComesTo budget k u k' ↔ k' = k := by
  constructor
  · rintro ⟨log, ⟨⟩⟩
    rfl
  · rintro rfl
    exact ⟨[e], rfl⟩

/-- A sequence comes to what its second part comes to, from where the first one came to. -/
theorem comesTo_bind_iff {b : β} : (x >>= f).ComesTo budget k b k'
    ↔ ∃ a k₁, x.ComesTo budget k a k₁ ∧ (f a).ComesTo budget k₁ b k' := by
  constructor
  · rintro ⟨log, h⟩
    obtain ⟨a, log₁, k₁, log₂, hx, hf, -⟩ := bind_eq_done_iff.mp h
    exact ⟨a, k₁, ⟨log₁, hx⟩, log₂, hf⟩
  · rintro ⟨a, k₁, ⟨log₁, hx⟩, log₂, hf⟩
    exact ⟨_, bind_eq_done_iff.mpr ⟨a, log₁, k₁, log₂, hx, hf, rfl⟩⟩

/-- What transforms a value comes to what the value becomes. -/
theorem comesTo_bind_pure_iff {f : α → β} {b : β} :
    (x >>= fun a => pure (f a)).ComesTo budget k b k' ↔ ∃ a, x.ComesTo budget k a k' ∧ b = f a := by
  simp only [comesTo_bind_iff, comesTo_pure_iff]
  constructor
  · rintro ⟨a, k₁, hx, rfl, rfl⟩
    exact ⟨a, hx, rfl⟩
  · rintro ⟨a, hx, rfl⟩
    exact ⟨a, k', hx, rfl, rfl⟩

/-- Nothing comes to two values. -/
theorem ComesTo.unique {a b : α} (h : x.ComesTo budget k a k') (h' : x.ComesTo budget k b k'') :
    a = b ∧ k' = k'' := by
  obtain ⟨log, h⟩ := h
  obtain ⟨log', h'⟩ := h'
  obtain ⟨rfl, -, rfl⟩ := Outcome.done.inj (h.symm.trans h')
  exact ⟨rfl, rfl⟩

end Eval

/-- The environment of a subject, of a parser for what is skipped and of one for what may
follow a keyword, if there are such. -/
def Env.ofParsers {σ τ : Type} (subject : Text) (skip : Option (Parser σ))
    (follow : Option (Parser τ)) : Env :=
  ⟨subject, skip.map Parser.scan, follow.map Parser.scan⟩

namespace Parser

/-! ## What makes a boundary -/

variable {σ τ : Type} {subject : Text} {skip : Option (Parser σ)} {follow : Option (Parser τ)}
  {n stop budget : Nat} {k k' : Knots}

/-- **The skip behind a keyword**, in the bare environment of the subject: whether it
advances from the position, and the state that it leaves. -/
inductive Skips (subject : Text) (n budget : Nat) : Option (Parser σ) → Knots → Bool → Knots → Prop
  | unset (k : Knots) : Skips subject n budget none k false k
  | beyond {s : Parser σ} {k k' : Knots} {env : Env} {stop : Nat} {a : σ}
      (hrun : (s.run (.new subject) n).ComesTo budget k (.ok env stop a) k') (h : n < stop) :
      Skips subject n budget (some s) k true k'
  | back {s : Parser σ} {k k' : Knots} {env : Env} {stop : Nat} {a : σ}
      (hrun : (s.run (.new subject) n).ComesTo budget k (.ok env stop a) k') (h : stop ≤ n) :
      Skips subject n budget (some s) k false k'
  | failed {s : Parser σ} {k k' : Knots} {message : String} {about : Option Nat}
      (hrun : (s.run (.new subject) n).ComesTo budget k (.fail message about) k') :
      Skips subject n budget (some s) k false k'

/-- **A keyword may end at a position.** -/
inductive MayEnd (subject : Text) (skip : Option (Parser σ)) (follow : Option (Parser τ))
    (n budget : Nat) (k : Knots) : Knots → Prop
  /-- Nothing is said about what may follow. -/
  | unset (h : follow = none) : MayEnd subject skip follow n budget k k
  /-- The subject ends. -/
  | atEnd (h : Text.size subject ≤ n) : MayEnd subject skip follow n budget k k
  /-- The skip advances. -/
  | skipped {f : Parser τ} {k' : Knots} (hfollow : follow = some f) (hleft : n < Text.size subject)
      (h : Skips subject n budget skip k true k') : MayEnd subject skip follow n budget k k'
  /-- What may follow does, run with nothing to skip and nothing to follow. -/
  | followed {f : Parser τ} {k₁ k' : Knots} {env : Env} {stop : Nat} {a : τ}
      (hfollow : follow = some f) (hleft : n < Text.size subject)
      (hskip : Skips subject n budget skip k false k₁)
      (h : (f.run (.new subject) n).ComesTo budget k₁ (.ok env stop a) k') :
      MayEnd subject skip follow n budget k k'

/-- **A longer word stands at a position**: the subject goes on with nothing that is skipped
and nothing that may follow. -/
inductive GoesOn (subject : Text) (skip : Option (Parser σ)) (follow : Option (Parser τ))
    (n budget : Nat) (k k' : Knots) : Prop
  | intro {f : Parser τ} {k₁ : Knots} {message : String} {about : Option Nat}
      (hfollow : follow = some f) (hleft : n < Text.size subject)
      (hskip : Skips subject n budget skip k false k₁)
      (h : (f.run (.new subject) n).ComesTo budget k₁ (.fail message about) k')

/-- What is left of a parser tells where it ends. -/
theorem comesTo_scan_some_iff {α : Type} {p : Parser α} :
    (p.scan subject n).ComesTo budget k (some stop) k'
      ↔ ∃ env a, (p.run (.new subject) n).ComesTo budget k (.ok env stop a) k' := by
  rw [scan, Eval.comesTo_bind_iff]
  constructor
  · rintro ⟨reply, k₁, hrun, hreply⟩
    cases reply with
    | ok env stop' a =>
      obtain ⟨⟨⟩, rfl⟩ := Eval.comesTo_pure_iff.mp hreply
      exact ⟨env, a, hrun⟩
    | fail message about => exact absurd (Eval.comesTo_pure_iff.mp hreply).1 (by simp)
  · rintro ⟨env, a, hrun⟩
    exact ⟨_, k', hrun, Eval.comesTo_pure_iff.mpr ⟨rfl, rfl⟩⟩

theorem comesTo_scan_none_iff {α : Type} {p : Parser α} :
    (p.scan subject n).ComesTo budget k none k'
      ↔ ∃ message about, (p.run (.new subject) n).ComesTo budget k (.fail message about) k' := by
  rw [scan, Eval.comesTo_bind_iff]
  constructor
  · rintro ⟨reply, k₁, hrun, hreply⟩
    cases reply with
    | ok env stop' a => exact absurd (Eval.comesTo_pure_iff.mp hreply).1 (by simp)
    | fail message about =>
      obtain ⟨-, rfl⟩ := Eval.comesTo_pure_iff.mp hreply
      exact ⟨message, about, hrun⟩
  · rintro ⟨message, about, hrun⟩
    exact ⟨_, k', hrun, Eval.comesTo_pure_iff.mpr ⟨rfl, rfl⟩⟩

/-- Skipping ends beyond the position if what is skipped does: what goes back is not skipped. -/
theorem lt_skipped_iff {found : Nat} : (n < if n ≤ found then found else n) ↔ n < found := by
  split <;> omega

/-- **The skip advances** if and only if skipping ends beyond the position. -/
theorem skips_iff {advances : Bool} : Skips subject n budget skip k advances k'
    ↔ ∃ stop, ((Env.ofParsers subject skip follow).skipFrom n).ComesTo budget k stop k'
      ∧ advances = decide (n < stop) := by
  cases skip with
  | none =>
    simp only [Env.skipFrom, Env.ofParsers, Option.map_none, Eval.comesTo_pure_iff]
    constructor
    · rintro ⟨⟩
      exact ⟨n, ⟨rfl, rfl⟩, by simp⟩
    · rintro ⟨_, ⟨rfl, rfl⟩, rfl⟩
      simpa using Skips.unset k'
  | some s =>
    simp only [Env.skipFrom, Env.ofParsers, Option.map_some, Eval.comesTo_bind_iff]
    constructor
    · rintro (_ | ⟨hrun, h⟩ | ⟨hrun, h⟩ | hrun)
      · refine ⟨_, ⟨_, k', comesTo_scan_some_iff.mpr ⟨_, _, hrun⟩, Eval.comesTo_pure_iff.mpr
          ⟨rfl, rfl⟩⟩, ?_⟩
        simp only [lt_skipped_iff, decide_eq_true h]
      · refine ⟨_, ⟨_, k', comesTo_scan_some_iff.mpr ⟨_, _, hrun⟩, Eval.comesTo_pure_iff.mpr
          ⟨rfl, rfl⟩⟩, ?_⟩
        simp only [lt_skipped_iff, decide_eq_false (Nat.not_lt_of_le h)]
      · exact ⟨n, ⟨none, k', comesTo_scan_none_iff.mpr ⟨_, _, hrun⟩, Eval.comesTo_pure_iff.mpr
          ⟨rfl, rfl⟩⟩, by simp⟩
    · rintro ⟨stop, ⟨found, k₁, hfound, hstop⟩, rfl⟩
      cases found with
      | none =>
        obtain ⟨rfl, rfl⟩ := Eval.comesTo_pure_iff.mp hstop
        obtain ⟨message, about, hrun⟩ := comesTo_scan_none_iff.mp hfound
        simpa using Skips.failed hrun
      | some found =>
        obtain ⟨rfl, rfl⟩ := Eval.comesTo_pure_iff.mp hstop
        obtain ⟨env, a, hrun⟩ := comesTo_scan_some_iff.mp hfound
        simp only [lt_skipped_iff]
        obtain h | h := Nat.lt_or_ge n found
        · exact decide_eq_true h ▸ .beyond hrun h
        · exact decide_eq_false (Nat.not_lt_of_le h) ▸ .back hrun h

/-- The boundary test where the subject goes on and something is said about what may follow. -/
theorem comesTo_mayEndAt_inside {f : Parser τ} {may : Bool} (hleft : n < Text.size subject) :
    (mayEndAt (Env.ofParsers subject skip (some f)) n).ComesTo budget k may k'
      ↔ (may = true ∧ Skips subject n budget skip k true k')
        ∨ ∃ k₁, Skips subject n budget skip k false k₁
          ∧ ∃ found, (f.scan subject n).ComesTo budget k₁ found k' ∧ may = found.isSome := by
  have hinside : ¬ (Env.ofParsers subject skip (some f)).length ≤ n := Nat.not_le_of_lt hleft
  have htest : mayEndAt (Env.ofParsers subject skip (some f)) n
      = (Env.ofParsers subject skip (some f)).skipFrom n >>= fun stop =>
          if n < stop then pure true
          else f.scan subject n >>= fun found => pure found.isSome := by
    show (if _ then _ else _) = _
    rw [if_neg hinside]
    rfl
  rw [htest, Eval.comesTo_bind_iff]
  constructor
  · rintro ⟨stop, k₁, hskip, hrest⟩
    have hskips := skips_iff.mpr ⟨stop, hskip, rfl⟩
    by_cases hstop : n < stop
    · rw [if_pos hstop] at hrest
      obtain ⟨rfl, rfl⟩ := Eval.comesTo_pure_iff.mp hrest
      exact .inl ⟨rfl, decide_eq_true hstop ▸ hskips⟩
    · rw [if_neg hstop, Eval.comesTo_bind_pure_iff] at hrest
      exact .inr ⟨k₁, decide_eq_false hstop ▸ hskips, hrest⟩
  · rintro (⟨rfl, hskips⟩ | ⟨k₁, hskips, found, hfound, rfl⟩)
    · obtain ⟨stop, hskip, hstop⟩ := skips_iff.mp hskips
      refine ⟨stop, k', hskip, ?_⟩
      rw [if_pos (of_decide_eq_true hstop.symm)]
      exact Eval.comesTo_pure_iff.mpr ⟨rfl, rfl⟩
    · obtain ⟨stop, hskip, hstop⟩ := skips_iff.mp hskips
      refine ⟨stop, k₁, hskip, ?_⟩
      rw [if_neg (of_decide_eq_false hstop.symm), Eval.comesTo_bind_pure_iff]
      exact ⟨found, hfound, rfl⟩

/-- Where nothing is said or nothing is left, nothing is run. -/
theorem mayEndAt_eq_pure (h : follow = none ∨ Text.size subject ≤ n) :
    mayEndAt (Env.ofParsers subject skip follow) n = pure true := by
  cases follow with
  | none => rfl
  | some f =>
    obtain ⟨⟨⟩⟩ | hend := h
    exact if_pos hend

/-- **The boundary test succeeds** if and only if a keyword may end there. -/
theorem comesTo_mayEndAt_true_iff :
    (mayEndAt (Env.ofParsers subject skip follow) n).ComesTo budget k true k'
      ↔ MayEnd subject skip follow n budget k k' := by
  constructor
  · intro h
    cases hfollow : follow with
    | none =>
      rw [mayEndAt_eq_pure (.inl hfollow)] at h
      obtain ⟨-, rfl⟩ := Eval.comesTo_pure_iff.mp h
      exact .unset rfl
    | some f =>
      subst hfollow
      obtain hleft | hend := Nat.lt_or_ge n (Text.size subject)
      · obtain ⟨-, hskips⟩ | ⟨k₁, hskips, found, hfound, hmay⟩ :=
          (comesTo_mayEndAt_inside hleft).mp h
        · exact .skipped rfl hleft hskips
        · obtain ⟨stop, rfl⟩ := Option.isSome_iff_exists.mp hmay.symm
          obtain ⟨env, a, hrun⟩ := comesTo_scan_some_iff.mp hfound
          exact .followed rfl hleft hskips hrun
      · rw [mayEndAt_eq_pure (.inr hend)] at h
        obtain ⟨-, rfl⟩ := Eval.comesTo_pure_iff.mp h
        exact .atEnd hend
  · rintro (h | h | ⟨rfl, hleft, hskips⟩ | ⟨rfl, hleft, hskips, hrun⟩)
    · rw [mayEndAt_eq_pure (.inl h)]
      exact Eval.comesTo_pure_iff.mpr ⟨rfl, rfl⟩
    · rw [mayEndAt_eq_pure (.inr h)]
      exact Eval.comesTo_pure_iff.mpr ⟨rfl, rfl⟩
    · exact (comesTo_mayEndAt_inside hleft).mpr (.inl ⟨rfl, hskips⟩)
    · exact (comesTo_mayEndAt_inside hleft).mpr
        (.inr ⟨_, hskips, _, comesTo_scan_some_iff.mpr ⟨_, _, hrun⟩, rfl⟩)

/-- **The boundary test fails** if and only if a longer word stands there. -/
theorem comesTo_mayEndAt_false_iff :
    (mayEndAt (Env.ofParsers subject skip follow) n).ComesTo budget k false k'
      ↔ GoesOn subject skip follow n budget k k' := by
  constructor
  · intro h
    cases hfollow : follow with
    | none =>
      rw [mayEndAt_eq_pure (.inl hfollow)] at h
      exact absurd (Eval.comesTo_pure_iff.mp h).1 (by simp)
    | some f =>
      subst hfollow
      obtain hleft | hend := Nat.lt_or_ge n (Text.size subject)
      · obtain ⟨⟨⟩, -⟩ | ⟨k₁, hskips, found, hfound, hmay⟩ :=
          (comesTo_mayEndAt_inside hleft).mp h
        obtain rfl := Option.isNone_iff_eq_none.mp (Option.isSome_eq_false_iff.mp hmay.symm)
        obtain ⟨message, about, hrun⟩ := comesTo_scan_none_iff.mp hfound
        exact .intro rfl hleft hskips hrun
      · rw [mayEndAt_eq_pure (.inr hend)] at h
        exact absurd (Eval.comesTo_pure_iff.mp h).1 (by simp)
  · rintro ⟨rfl, hleft, hskips, hrun⟩
    exact (comesTo_mayEndAt_inside hleft).mpr
      (.inr ⟨_, hskips, none, comesTo_scan_none_iff.mpr ⟨_, _, hrun⟩, rfl⟩)

/-! ## A text that ends on a boundary -/

variable {literal : Parser String} {message : String} {env env' : Env} {text : String}

/-- What a keyword does with the reply of its text. -/
theorem comesTo_bounded_iff {reply : Reply String} :
    ((bounded literal message).run env n).ComesTo budget k reply k'
      ↔ (∃ message' about, (literal.run env n).ComesTo budget k (.fail message' about) k'
          ∧ reply = .fail message (some n))
        ∨ ∃ env₁ stop text k₁, (literal.run env n).ComesTo budget k (.ok env₁ stop text) k₁
          ∧ ∃ may, (mayEndAt env₁ stop).ComesTo budget k₁ may k'
            ∧ reply = if may then .ok env₁ stop text else .fail message (some stop) := by
  rw [bounded, Eval.comesTo_bind_iff]
  constructor
  · rintro ⟨first, k₁, hliteral, hrest⟩
    cases first with
    | fail message' about =>
      obtain ⟨rfl, rfl⟩ := Eval.comesTo_pure_iff.mp hrest
      exact .inl ⟨message', about, hliteral, rfl⟩
    | ok env₁ stop text =>
      obtain ⟨may, k₂, hmay, hreply⟩ := Eval.comesTo_bind_iff.mp hrest
      refine .inr ⟨env₁, stop, text, k₁, hliteral, may, ?_⟩
      cases may with
      | true =>
        obtain ⟨rfl, rfl⟩ := Eval.comesTo_pure_iff.mp hreply
        exact ⟨hmay, rfl⟩
      | false =>
        obtain ⟨_, k₃, hevent, hfail⟩ := Eval.comesTo_bind_iff.mp hreply
        obtain rfl := Eval.comesTo_emit_iff.mp hevent
        obtain ⟨rfl, rfl⟩ := Eval.comesTo_pure_iff.mp hfail
        exact ⟨hmay, rfl⟩
  · rintro (⟨message', about, hliteral, rfl⟩ | ⟨env₁, stop, text, k₁, hliteral, may, hmay, rfl⟩)
    · exact ⟨_, k', hliteral, Eval.comesTo_pure_iff.mpr ⟨rfl, rfl⟩⟩
    · refine ⟨_, k₁, hliteral, Eval.comesTo_bind_iff.mpr ⟨may, k', hmay, ?_⟩⟩
      cases may with
      | true => exact Eval.comesTo_pure_iff.mpr ⟨rfl, rfl⟩
      | false =>
        exact Eval.comesTo_bind_iff.mpr ⟨(), k', Eval.comesTo_emit_iff.mpr rfl,
          Eval.comesTo_pure_iff.mpr ⟨rfl, rfl⟩⟩

/-- **The rule for keywords**: a text, and the keyword that is this text with a boundary behind
it, at a position of an environment. -/
structure EndsOnBoundary (literal keyed : Parser String) (message : String) (subject : Text)
    (skip : Option (Parser σ)) (follow : Option (Parser τ)) (n : Nat) : Prop where
  /-- The keyword succeeds if its text does and may end there, with the reply of the text. -/
  succeeds_iff : ∀ budget k env stop text k',
    (keyed.run (.ofParsers subject skip follow) n).ComesTo budget k (.ok env stop text) k'
      ↔ ∃ k₁, (literal.run (.ofParsers subject skip follow) n).ComesTo budget k
          (.ok env stop text) k₁
        ∧ MayEnd subject skip follow stop budget k₁ k'
  /-- It fails with its message: about the position of the call if its text fails, and about
  the end of the text if a longer word stands there. -/
  fails_iff : ∀ budget k message' about k',
    (keyed.run (.ofParsers subject skip follow) n).ComesTo budget k (.fail message' about) k'
      ↔ message' = message
        ∧ ((∃ message₁ about₁, (literal.run (.ofParsers subject skip follow) n).ComesTo budget k
              (.fail message₁ about₁) k' ∧ about = some n)
          ∨ ∃ env stop text k₁, (literal.run (.ofParsers subject skip follow) n).ComesTo budget k
              (.ok env stop text) k₁
            ∧ GoesOn subject skip follow stop budget k₁ k' ∧ about = some stop)
  /-- A success was one, with the same end and text, before anything was said about what may
  follow. -/
  success_of_restricted : ∀ budget k env stop text k',
    (keyed.run (.ofParsers subject skip follow) n).ComesTo budget k (.ok env stop text) k' →
      env = .ofParsers subject skip follow
      ∧ ∃ k₁, (keyed.run (.ofParsers subject skip (none : Option (Parser τ))) n).ComesTo budget k
        (.ok (.ofParsers subject skip (none : Option (Parser τ))) stop text) k₁
  /-- What succeeded then comes to the same success or fails about the end of the text. -/
  restricted_of_success : ∀ budget k env stop text k₁,
    (keyed.run (.ofParsers subject skip (none : Option (Parser τ))) n).ComesTo budget k
        (.ok env stop text) k₁ →
      ∀ reply k', (keyed.run (.ofParsers subject skip follow) n).ComesTo budget k reply k' →
        reply = .ok (.ofParsers subject skip follow) stop text
        ∨ reply = .fail message (some stop)
  /-- What failed then fails as before. -/
  fails_of_fails : ∀ budget k message' about k',
    (keyed.run (.ofParsers subject skip (none : Option (Parser τ))) n).ComesTo budget k
        (.fail message' about) k' →
      (keyed.run (.ofParsers subject skip follow) n).ComesTo budget k (.fail message' about) k'

/-- A text that ignores what may follow is found in one environment as in the other. -/
theorem IgnoresFollow.comesTo_iff (hliteral : literal.IgnoresFollow) {reply : Reply String} :
    (literal.run (.ofParsers subject skip follow) n).ComesTo budget k reply k'
      ↔ ∃ reply₀, (literal.run (.ofParsers subject skip (none : Option (Parser τ))) n).ComesTo
          budget k reply₀ k' ∧ reply = reply₀.rebase (.ofParsers subject skip follow) := by
  have hrun := hliteral.run_eq (.ofParsers subject skip follow) n none
  rw [hrun]
  exact Eval.comesTo_bind_pure_iff

/-- What hands on its environment succeeds in it. -/
theorem KeepsEnv.comesTo_ok {α : Type} {p : Parser α} (hp : p.KeepsEnv) {a : α}
    (h : (p.run env n).ComesTo budget k (.ok env' stop a) k') : env' = env := by
  obtain ⟨log, h⟩ := h
  exact hp env n h

theorem bounded_ok_iff (hliteral : literal.KeepsEnv) :
    ((bounded literal message).run (.ofParsers subject skip follow) n).ComesTo budget k
        (.ok env stop text) k'
      ↔ ∃ k₁, (literal.run (.ofParsers subject skip follow) n).ComesTo budget k
          (.ok env stop text) k₁
        ∧ MayEnd subject skip follow stop budget k₁ k' := by
  rw [comesTo_bounded_iff]
  constructor
  · rintro (⟨message', about, -, h⟩ | ⟨env₁, stop₁, text₁, k₁, hfound, may, hmay, hreply⟩)
    · exact absurd h (by simp)
    · obtain rfl := hliteral.comesTo_ok hfound
      cases may with
      | false => exact absurd hreply (by simp)
      | true =>
        obtain ⟨rfl, rfl, rfl⟩ := Reply.ok.inj hreply
        exact ⟨k₁, hfound, comesTo_mayEndAt_true_iff.mp hmay⟩
  · rintro ⟨k₁, hfound, hends⟩
    obtain rfl := hliteral.comesTo_ok hfound
    exact .inr ⟨_, stop, text, k₁, hfound, true, comesTo_mayEndAt_true_iff.mpr hends, rfl⟩

theorem bounded_fail_iff (hliteral : literal.KeepsEnv) {message' : String} {about : Option Nat} :
    ((bounded literal message).run (.ofParsers subject skip follow) n).ComesTo budget k
        (.fail message' about) k'
      ↔ message' = message
        ∧ ((∃ message₁ about₁, (literal.run (.ofParsers subject skip follow) n).ComesTo budget k
              (.fail message₁ about₁) k' ∧ about = some n)
          ∨ ∃ env stop text k₁, (literal.run (.ofParsers subject skip follow) n).ComesTo budget k
              (.ok env stop text) k₁
            ∧ GoesOn subject skip follow stop budget k₁ k' ∧ about = some stop) := by
  rw [comesTo_bounded_iff]
  constructor
  · rintro (⟨message₁, about₁, hfailed, h⟩ | ⟨env₁, stop, text, k₁, hfound, may, hmay, hreply⟩)
    · obtain ⟨rfl, rfl⟩ := Reply.fail.inj h
      exact ⟨rfl, .inl ⟨message₁, about₁, hfailed, rfl⟩⟩
    · obtain rfl := hliteral.comesTo_ok hfound
      cases may with
      | true => exact absurd hreply (by simp)
      | false =>
        obtain ⟨rfl, rfl⟩ := Reply.fail.inj hreply
        exact ⟨rfl, .inr ⟨_, stop, text, k₁, hfound, comesTo_mayEndAt_false_iff.mp hmay, rfl⟩⟩
  · rintro ⟨rfl, ⟨message₁, about₁, hfailed, rfl⟩ | ⟨env, stop, text, k₁, hfound, hgoes, rfl⟩⟩
    · exact .inl ⟨message₁, about₁, hfailed, rfl⟩
    · obtain rfl := hliteral.comesTo_ok hfound
      exact .inr ⟨_, stop, text, k₁, hfound, false, comesTo_mayEndAt_false_iff.mpr hgoes, rfl⟩

/-- Where nothing is said about what may follow, a keyword is its text. -/
theorem bounded_ok_iff_of_unset (hliteral : literal.KeepsEnv) :
    ((bounded literal message).run (.ofParsers subject skip (none : Option (Parser τ))) n).ComesTo
        budget k (.ok env stop text) k'
      ↔ (literal.run (.ofParsers subject skip (none : Option (Parser τ))) n).ComesTo budget k
          (.ok env stop text) k' := by
  rw [bounded_ok_iff hliteral]
  constructor
  · rintro ⟨k₁, hfound, _ | _ | ⟨⟨⟩, -, -⟩ | ⟨⟨⟩, -, -, -⟩⟩ <;> exact hfound
  · exact fun hfound => ⟨k', hfound, .unset rfl⟩

/-- **A text that ignores what may follow, with a boundary behind it.** -/
theorem bounded_endsOnBoundary (hliteral : literal.IgnoresFollow) (message : String)
    (subject : Text) (skip : Option (Parser σ)) (follow : Option (Parser τ)) (n : Nat) :
    EndsOnBoundary literal (bounded literal message) message subject skip follow n where
  succeeds_iff _ _ _ _ _ _ := bounded_ok_iff hliteral.keepsEnv
  fails_iff _ _ _ _ _ := bounded_fail_iff hliteral.keepsEnv
  success_of_restricted budget k env stop text k' h := by
    obtain ⟨k₁, hfound, -⟩ := (bounded_ok_iff hliteral.keepsEnv).mp h
    obtain ⟨reply, hunset, hreply⟩ := hliteral.comesTo_iff.mp hfound
    cases reply with
    | fail message₁ about₁ => exact absurd hreply (by simp [Reply.rebase])
    | ok env₀ stop₀ text₀ =>
      obtain ⟨rfl, rfl, rfl⟩ := Reply.ok.inj hreply
      obtain rfl := hliteral.keepsEnv.comesTo_ok hunset
      exact ⟨rfl, k₁, (bounded_ok_iff_of_unset hliteral.keepsEnv).mpr hunset⟩
  restricted_of_success budget k env stop text k₁ h reply k' hreply := by
    have hunset := (bounded_ok_iff_of_unset hliteral.keepsEnv).mp h
    have hfound : (literal.run (.ofParsers subject skip follow) n).ComesTo budget k
        (.ok (.ofParsers subject skip follow) stop text) k₁ :=
      hliteral.comesTo_iff.mpr ⟨_, hunset, rfl⟩
    obtain ⟨message₁, about₁, hfailed, -⟩ | ⟨env₁, stop₁, text₁, k₂, hfound₁, may, -, rfl⟩ :=
      comesTo_bounded_iff.mp hreply
    · exact absurd (hfound.unique hfailed).1 (by simp)
    · obtain ⟨rfl, rfl, rfl⟩ := Reply.ok.inj (hfound.unique hfound₁).1
      cases may with
      | true => exact .inl rfl
      | false => exact .inr rfl
  fails_of_fails budget k message' about k' h := by
    obtain ⟨rfl, ⟨message₁, about₁, hunset, rfl⟩ | ⟨_, _, _, _, -, ⟨⟨⟩, -, -, -⟩, -⟩⟩ :=
      (bounded_fail_iff hliteral.keepsEnv).mp h
    exact (bounded_fail_iff hliteral.keepsEnv).mpr
      ⟨rfl, .inl ⟨message₁, about₁, hliteral.comesTo_iff.mpr ⟨_, hunset, rfl⟩, rfl⟩⟩

/-- **Keywords end on a boundary**, exact ones and those up to case. For `key` and
`keyIgnoreCase` the message is the one that names the keyword. -/
theorem keyword_endsOnBoundary (keyword message : String) (subject : Text)
    (skip : Option (Parser σ)) (follow : Option (Parser τ)) (n : Nat) :
    EndsOnBoundary (string keyword) (keyWith keyword message) message subject skip follow n
    ∧ EndsOnBoundary (ignoreCase keyword) (keyIgnoreCaseWith keyword message) message subject
      skip follow n :=
  ⟨bounded_endsOnBoundary (.token _ _) message subject skip follow n,
    bounded_endsOnBoundary (.token _ _) message subject skip follow n⟩

/-- Where brackets may follow and blanks are skipped: a keyword in front of a bracket, one that
is the beginning of a longer word, and one with room behind it. -/
theorem keyword_endsOnBoundary_brackets :
    let env (subject : Text) : Env := .ofParsers subject (some (string " ")) (some (string "("))
    ((key "in").run (env ['i', 'n', '(']) 0).ComesTo 0 .initial
      (.ok (env ['i', 'n', '(']) 2 "in") .initial
    ∧ ((key "in").run (env ['i', 'n', 'n']) 0).ComesTo 0 .initial
      (.fail "Does not match keyword in" (some 2)) .initial
    ∧ ((keyIgnoreCase "in").run (env ['I', 'N', ' ', 'n']) 0).ComesTo 0 .initial
      (.ok (env ['I', 'N', ' ', 'n']) 2 "IN") .initial := by
  intro env
  have hrule (subject : Text) := keyword_endsOnBoundary "in" ("Does not match keyword " ++ "in")
    subject (some (string " ")) (some (string "(")) 0
  have hbracket : MayEnd ['i', 'n', '('] (some (string " ")) (some (string "(")) 2 0 .initial
      .initial :=
    .followed rfl (by decide) (.failed ⟨[], rfl⟩) ⟨[], rfl⟩
  have hletter : GoesOn ['i', 'n', 'n'] (some (string " ")) (some (string "(")) 2 0 .initial
      .initial :=
    .intro rfl (by decide) (.failed ⟨[], rfl⟩) ⟨[], rfl⟩
  have hblank : MayEnd ['I', 'N', ' ', 'n'] (some (string " ")) (some (string "(")) 2 0 .initial
      .initial :=
    .skipped rfl (by decide) (.beyond ⟨[], rfl⟩ (by decide))
  refine ⟨?_, ?_, ?_⟩
  · exact ((hrule _).1.succeeds_iff _ _ _ _ _ _).mpr ⟨.initial, ⟨[], rfl⟩, hbracket⟩
  · exact ((hrule _).1.fails_iff _ _ _ _ _).mpr
      ⟨rfl, .inr ⟨_, 2, "in", .initial, ⟨[], rfl⟩, hletter, rfl⟩⟩
  · exact ((hrule _).2.succeeds_iff _ _ _ _ _ _).mpr ⟨.initial, ⟨[], rfl⟩, hblank⟩

end Parser

end Descent
