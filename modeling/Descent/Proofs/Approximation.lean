import Descent.Proofs.Construction
import Descent.Proofs.Evaluation
import Descent.Proofs.Rounds
import Mathlib.Data.List.FinRange

/-!
# Reached by larger and larger budgets

A recursive grammar is run with a budget of nested calls, and two grammars that
unfold to one another spend their budgets differently: how much more the one
needs is not known before the other has been run. What can be said is said in
the limit. An evaluation at a fixed budget is **reached by** a sequence of
evaluations, each at a budget of its own, if whenever it is done, almost all of
the sequence are done too, with the values that belong to its own
(`Eval.ReachedBy`).

The sequence on the right varies in everything that a budget varies: in the
handles of the grammars that are being run, in the scans that were made of
these handles, and in the environments that hold the scans. `Scan.ReachedBy`,
`Env.ReachedBy` and `Parser.ReachedBy` relate them, each at every pair of a
budget on the left and budgets on the right that exceed every bound
(`Grows`). Nothing relates the two otherwise, so that calls that start afresh
inside a scan, deep in a run, need no account of what is left to spend there.

Evaluations are compared in states that agree on the scopes (`Knots.Alike`);
they may differ in which grammars are tied, which no reply depends on. One
scope is singled out and stays alive.
-/

namespace Descent

/-- A sequence of budgets that exceeds every bound from some number on. -/
def Grows (c : Nat → Nat) : Prop := ∀ m, ∃ s, ∀ t, s ≤ t → m ≤ c t

namespace Grows

variable {c : Nat → Nat}

theorem id : Grows fun t => t := fun m => ⟨m, fun _ ht => ht⟩

/-- One call less changes nothing in the limit. -/
theorem pred (h : Grows c) : Grows fun t => c t - 1 := by
  intro m
  obtain ⟨s, hs⟩ := h (m + 1)
  exact ⟨s, fun t ht => Nat.le_sub_of_add_le (hs t ht)⟩

end Grows

namespace Knots

/-- A scope that has been opened and not been closed. -/
structure Alive (scope : Nat) (k : Knots) : Prop where
  live : scope ∈ k.live
  opened : scope < k.nextScope

/-- **States that agree on the scopes**, one of which is alive. They may differ
in the grammars that are tied. -/
structure Alike (scope : Nat) (k l : Knots) : Prop where
  nextScope : k.nextScope = l.nextScope
  live : k.live = l.live
  alive : k.Alive scope

theorem Alike.refl {scope : Nat} {k : Knots} (h : k.Alive scope) : k.Alike scope k := ⟨rfl, rfl, h⟩

/-- Before the first run, the scope of the grammar that is run is alive. -/
theorem alive_initial : Knots.initial.Alive 0 := ⟨List.mem_singleton_self 0, Nat.one_pos⟩

end Knots

/-- The same value throughout a sequence. -/
def Same {α : Type} (a : α) (a' : Nat → α) : Prop := a' = fun _ => a

namespace Eval

variable {α β γ δ : Type} {scope b : Nat} {c : Nat → Nat}

/-- **Whenever the evaluation is done** at a budget, almost all of a sequence
are done at theirs, with values that belong to its value, and the states they
leave agree on the scopes if the states they began in did. -/
def ReachedBy (scope b : Nat) (c : Nat → Nat) (x : Eval α) (y : Nat → Eval β)
    (Q : α → (Nat → β) → Prop) : Prop :=
  ∀ ⦃k : Knots⦄ ⦃a : α⦄ ⦃log : List Event⦄ ⦃k' : Knots⦄, k.Alive scope →
    x b k = .done a log k' → ∃ a', Q a a' ∧ ∃ s, ∀ t, s ≤ t → ∀ l, k.Alike scope l →
      ∃ log' l', y t (c t) l = .done (a' t) log' l' ∧ k'.Alike scope l'

namespace ReachedBy

variable {x : Eval α} {y : Nat → Eval β} {f : α → Eval γ} {g : Nat → β → Eval δ}
variable {P : α → (Nat → β) → Prop} {Q : γ → (Nat → δ) → Prop}

/-- The scope is still alive when the evaluation is done. -/
theorem alive (h : ReachedBy scope b c x y P) {k k' : Knots} {a : α} {log : List Event}
    (hk : k.Alive scope) (hx : x b k = .done a log k') : k'.Alive scope := by
  obtain ⟨a', -, s, hs⟩ := h hk hx
  obtain ⟨log', l', -, hl'⟩ := hs s (Nat.le_refl s) k (.refl hk)
  exact hl'.alive

theorem pure {a : α} {a' : Nat → β} (h : P a a') :
    ReachedBy scope b c (Pure.pure a) (fun t => Pure.pure (a' t)) P := by
  intro k a₁ log k' hk hx
  obtain ⟨rfl, rfl, rfl⟩ := Outcome.done.inj hx
  exact ⟨a', h, 0, fun t _ l hl => ⟨[], l, rfl, hl⟩⟩

/-- **What is reached in two steps**: the second part of the sequence is compared
for the values that the first part reaches. -/
theorem bind (hx : ReachedBy scope b c x y P)
    (hf : ∀ a a', P a a' → ReachedBy scope b c (f a) (fun t => g t (a' t)) Q) :
    ReachedBy scope b c (x >>= f) (fun t => y t >>= g t) Q := by
  intro k d log k' hk h
  obtain ⟨a, log₁, k₁, log₂, hdone, hrest, -⟩ := bind_eq_done_iff.mp h
  obtain ⟨a', ha, s₁, hs₁⟩ := hx hk hdone
  obtain ⟨d', hd, s₂, hs₂⟩ := hf a a' ha (hx.alive hk hdone) hrest
  -- from the larger of the two numbers on, both parts are done
  refine ⟨d', hd, max s₁ s₂, fun t ht l hl => ?_⟩
  obtain ⟨log₁', l₁, h₁, hl₁⟩ := hs₁ t (Nat.max_le.mp ht).1 l hl
  obtain ⟨log₂', l₂, h₂, hl₂⟩ := hs₂ t (Nat.max_le.mp ht).2 l₁ hl₁
  exact ⟨_, l₂, bind_eq_done_iff.mpr ⟨_, _, _, _, h₁, h₂, rfl⟩, hl₂⟩

/-- A first part on the left alone, to which nothing corresponds on the right. -/
theorem bindLeft {z : Nat → Eval δ}
    (hx : ReachedBy scope b c x (fun _ => Pure.pure ()) fun _ _ => True)
    (hf : ∀ a, ReachedBy scope b c (f a) z Q) : ReachedBy scope b c (x >>= f) z Q := by
  have h := bind (g := fun t _ => z t) hx fun a _ _ => hf a
  simpa only [pure_bind] using h

/-- A first part on the right alone, to which nothing corresponds on the left. -/
theorem bindRight {w : Eval γ}
    (hy : ReachedBy scope b c (Pure.pure ()) y fun _ _ => True)
    (hg : ∀ a' : Nat → β, ReachedBy scope b c w (fun t => g t (a' t)) Q) :
    ReachedBy scope b c w (fun t => y t >>= g t) Q := by
  have h := bind (f := fun _ => w) hy fun _ a' _ => hg a'
  simpa only [pure_bind] using h

/-- Finitely many of the sequence do not matter. -/
theorem of_eventually (y' : Nat → Eval β) (hx : ReachedBy scope b c x y' P) (s₀ : Nat)
    (h : ∀ t, s₀ ≤ t → ∀ l, y t (c t) l = y' t (c t) l) : ReachedBy scope b c x y P := by
  intro k a log k' hk hdone
  obtain ⟨a', ha, s, hs⟩ := hx hk hdone
  refine ⟨a', ha, max s₀ s, fun t ht l hl => ?_⟩
  rw [h t (Nat.max_le.mp ht).1 l]
  exact hs t (Nat.max_le.mp ht).2 l hl

/-- Only what the left is at its budget matters. -/
theorem of_left (x' : Eval α) (hx : ReachedBy scope b c x' y P) (h : ∀ k, x b k = x' b k) :
    ReachedBy scope b c x y P := by
  intro k a log k' hk hdone
  rw [h k] at hdone
  exact hx hk hdone

/-- A stopped run is not done. -/
theorem stop (cause : Fault) : ReachedBy scope b c (Eval.stop cause) y P :=
  fun _ _ _ _ _ h => absurd h (by simp [Eval.stop])

/-- A run that is given up is not done. -/
theorem giveUp : ReachedBy scope b c Eval.giveUp y P :=
  fun _ _ _ _ _ h => absurd h (by simp [Eval.giveUp])

/-- Events are not compared. -/
theorem emit (e e' : Event) :
    ReachedBy scope b c (Eval.emit e) (fun _ => Eval.emit e') fun _ _ => True := by
  intro k a log k' hk hx
  obtain ⟨rfl, rfl, rfl⟩ := Outcome.done.inj hx
  exact ⟨fun _ => (), trivial, 0, fun t _ l hl => ⟨[e'], l, rfl, hl⟩⟩

/-- Another budget may be set on the left alone. -/
theorem withBudgetLeft {n : Nat} (h : ReachedBy scope n c x y P) :
    ReachedBy scope b c (Eval.withBudget n x) y P :=
  fun _ _ _ _ hk hx => h hk hx

/-- Other budgets may be set on the right alone. -/
theorem withBudgetRight {m : Nat → Nat} (h : ReachedBy scope b m x y P) :
    ReachedBy scope b c x (fun t => Eval.withBudget (m t) (y t)) P :=
  fun _ _ _ _ hk hx => h hk hx

theorem withBudget {n : Nat} {m : Nat → Nat} (h : ReachedBy scope n m x y P) :
    ReachedBy scope b c (Eval.withBudget n x) (fun t => Eval.withBudget (m t) (y t)) P :=
  fun _ _ _ _ hk hx => h hk hx

theorem budget : ReachedBy scope b c Eval.budget (fun _ => Eval.budget)
    fun a a' => a = b ∧ a' = c := by
  intro k a log k' hk hx
  obtain ⟨rfl, rfl, rfl⟩ := Outcome.done.inj hx
  exact ⟨c, ⟨rfl, rfl⟩, 0, fun t _ l hl => ⟨[], l, rfl, hl⟩⟩

/-- **The same scope is opened everywhere**, and it is not the one that was alive. -/
theorem openScope : ReachedBy scope b c Eval.openScope (fun _ => Eval.openScope)
    fun a a' => Same a a' ∧ a ≠ scope := by
  intro k a log k' hk hx
  obtain ⟨rfl, rfl, rfl⟩ := Outcome.done.inj hx
  refine ⟨fun _ => k.nextScope, ⟨rfl, Nat.ne_of_gt hk.opened⟩, 0, fun t _ l hl =>
    ⟨[], ⟨l.nextScope + 1, l.nextScope :: l.live, l.tied⟩, ?_, ?_, ?_, ?_, ?_⟩⟩
  · show Outcome.done l.nextScope [] _ = Outcome.done k.nextScope [] _
    rw [hl.nextScope]
  · exact congrArg (· + 1) hl.nextScope
  · show k.nextScope :: k.live = l.nextScope :: l.live
    rw [hl.nextScope, hl.live]
  · exact List.mem_cons_of_mem _ hk.live
  · exact Nat.lt_succ_of_lt hk.opened

/-- Another scope may be closed. -/
theorem closeScope {closed : Nat} (h : closed ≠ scope) :
    ReachedBy scope b c (Eval.closeScope closed) (fun _ => Eval.closeScope closed)
      fun _ _ => True := by
  intro k a log k' hk hx
  obtain ⟨rfl, rfl, rfl⟩ := Outcome.done.inj hx
  refine ⟨fun _ => (), trivial, 0, fun t _ l hl => ⟨[], _, rfl, ?_, ?_, ?_, ?_⟩⟩
  · exact hl.nextScope
  · show k.live.filter (· != closed) = l.live.filter (· != closed)
    rw [hl.live]
  · exact List.mem_filter.mpr ⟨hk.live, bne_iff_ne.mpr h.symm⟩
  · exact hk.opened

end ReachedBy

end Eval

/-! ## Scans, environments and replies -/

/-- A scan that is reached by scans: they end where it ends. -/
def Scan.ReachedBy (scope : Nat) (s : Scan) (s' : Nat → Scan) : Prop :=
  ∀ b c, Grows c → ∀ subject n,
    Eval.ReachedBy scope b c (s subject n) (fun t => s' t subject n) Same

/-- A scan that may not be there, and is there as often as those that reach it. -/
def Scan.OptionReachedBy (scope : Nat) : Option Scan → (Nat → Option Scan) → Prop
  | none, s' => ∀ t, s' t = none
  | some s, s' => ∃ r, (∀ t, s' t = some (r t)) ∧ s.ReachedBy scope r

/-- An environment that is reached by environments: the subject is the same, and
the scans are reached. -/
structure Env.ReachedBy (scope : Nat) (e : Env) (e' : Nat → Env) : Prop where
  subject : ∀ t, (e' t).subject = e.subject
  skip : Scan.OptionReachedBy scope e.skip fun t => (e' t).skip
  follow : Scan.OptionReachedBy scope e.follow fun t => (e' t).follow

namespace Env.ReachedBy

variable {scope : Nat} {e : Env} {e' : Nat → Env}

/-- An environment without scans. -/
theorem new (scope : Nat) (subject : Text) :
    (Env.new subject).ReachedBy scope fun _ => Env.new subject :=
  ⟨fun _ => rfl, fun _ => rfl, fun _ => rfl⟩

theorem from? (h : e.ReachedBy scope e') (t n : Nat) : (e' t).from? n = e.from? n := by
  rw [Env.from?, Env.from?, h.subject]

theorem length (h : e.ReachedBy scope e') (t : Nat) : (e' t).length = e.length := by
  rw [Env.length, Env.length, h.subject]

theorem withSubject (h : e.ReachedBy scope e') (subject : Text) :
    (e.withSubject subject).ReachedBy scope fun t => (e' t).withSubject subject :=
  ⟨fun _ => rfl, h.skip, h.follow⟩

theorem withoutSkip (h : e.ReachedBy scope e') :
    e.withoutSkip.ReachedBy scope fun t => (e' t).withoutSkip :=
  ⟨h.subject, fun _ => rfl, h.follow⟩

theorem withSkip (h : e.ReachedBy scope e') {s : Scan} {s' : Nat → Scan}
    (hs : s.ReachedBy scope s') :
    (e.withSkip (some s)).ReachedBy scope fun t => (e' t).withSkip (some (s' t)) :=
  ⟨h.subject, ⟨s', fun _ => rfl, hs⟩, h.follow⟩

/-- The same is skipped. -/
theorem skipFrom (h : e.ReachedBy scope e') {b : Nat} {c : Nat → Nat} (hc : Grows c) (n : Nat) :
    Eval.ReachedBy scope b c (e.skipFrom n) (fun t => (e' t).skipFrom n) Same := by
  have hskip := h.skip
  unfold Env.skipFrom
  cases hs : e.skip with
  | none =>
    rw [hs] at hskip
    have hnone : ∀ t, (e' t).skip = none := hskip
    simp only [hnone]
    exact .pure rfl
  | some s =>
    rw [hs] at hskip
    obtain ⟨r, hr, hreached⟩ := hskip
    simp only [hr, h.subject]
    refine .bind (hreached b c hc e.subject n) fun stop stop' hstop => ?_
    rw [hstop]
    cases stop with
    | none => exact .pure rfl
    | some stop => exact .pure rfl

end Env.ReachedBy

/-- **Replies that belong together**: the same failure, or a success with the same
position and value where each goes on in the environment it was called in. -/
inductive Reply.Alike {α : Type} (e : Env) (e' : Nat → Env) :
    Reply α → (Nat → Reply α) → Prop where
  | ok (stop : Nat) (a : α) : Alike e e' (.ok e stop a) fun t => .ok (e' t) stop a
  | fail (message : String) (about : Option Nat) :
      Alike e e' (.fail message about) fun _ => .fail message about

/-- **What is done with replies** is compared for the two kinds of replies. -/
theorem Eval.ReachedBy.bindReply {α β γ : Type} {scope b : Nat} {c : Nat → Nat} {e : Env}
    {e' : Nat → Env} {x : Eval (Reply α)} {y : Nat → Eval (Reply α)} {f : Reply α → Eval β}
    {g : Nat → Reply α → Eval γ} {Q : β → (Nat → γ) → Prop}
    (hx : ReachedBy scope b c x y (Reply.Alike e e'))
    (hok : ∀ stop a, ReachedBy scope b c (f (.ok e stop a)) (fun t => g t (.ok (e' t) stop a)) Q)
    (hfail : ∀ message about,
      ReachedBy scope b c (f (.fail message about)) (fun t => g t (.fail message about)) Q) :
    ReachedBy scope b c (x >>= f) (fun t => y t >>= g t) Q := by
  refine .bind hx fun r r' h => ?_
  cases h with
  | ok stop a => exact hok stop a
  | fail message about => exact hfail message about

/-! ## Parsers -/

namespace Parser

variable {α β γ δ : Type} {scope : Nat}

/-- **A parser that is reached by parsers**: whatever it replies, almost all of
them reply. -/
def ReachedBy (scope : Nat) (p : Parser α) (p' : Nat → Parser α) : Prop :=
  ∀ b c, Grows c → ∀ e e', Env.ReachedBy scope e e' → ∀ n,
    Eval.ReachedBy scope b c (p.run e n) (fun t => (p' t).run (e' t) n) (Reply.Alike e e')

/-- The scans of parsers that reach a parser reach its scan. -/
theorem ReachedBy.scan {p : Parser α} {p' : Nat → Parser α} (hp : p.ReachedBy scope p') :
    p.scan.ReachedBy scope fun t => (p' t).scan := by
  intro b c hc subject n
  refine .bindReply (hp b c hc _ _ (.new scope subject) n) (fun stop a => ?_) fun _ _ => ?_
  · exact .pure rfl
  · exact .pure rfl

namespace ReachedBy

/-! ### Parsers that are not made of others -/

theorem succeed (a : α) : (Parser.succeed a).ReachedBy scope fun _ => Parser.succeed a :=
  fun _ _ _ _ _ _ n => .pure (.ok n a)

theorem fail (message : String) :
    (Parser.fail message : Parser α).ReachedBy scope fun _ => Parser.fail message :=
  fun _ _ _ _ _ _ _ => .pure (.fail message none)

theorem position : Parser.position.ReachedBy scope fun _ => Parser.position :=
  fun _ _ _ _ _ _ n => .pure (.ok n n)

theorem moveTo (target : Nat) : (Parser.moveTo target).ReachedBy scope fun _ => .moveTo target := by
  intro b c _ e e' he n
  simp only [Parser.moveTo, he.from?]
  split
  · exact .pure (.ok target ())
  · exact .pure (.fail _ _)

theorem token (read : Reader) (message : String) :
    (Parser.token read message).ReachedBy scope fun _ => Parser.token read message := by
  intro b c hc e e' he n
  refine .bind (he.skipFrom hc n) fun start start' hstart => ?_
  rw [hstart]
  simp only [he.from?]
  cases (e.from? start).bind read with
  | none => exact .pure (.fail _ _)
  | some m => exact .pure (.ok _ _)

theorem endWith (message : String) :
    (Parser.endWith message).ReachedBy scope fun _ => Parser.endWith message := by
  intro b c hc e e' he n
  refine .bind (he.skipFrom hc n) fun start start' hstart => ?_
  rw [hstart]
  simp only [he.length]
  split
  · exact .pure (.ok _ _)
  · exact .pure (.fail _ _)

/-- The same keywords may end. -/
theorem mayEndAt {e : Env} {e' : Nat → Env} (he : e.ReachedBy scope e') {b : Nat} {c : Nat → Nat}
    (hc : Grows c) (n : Nat) :
    Eval.ReachedBy scope b c (Parser.mayEndAt e n) (fun t => Parser.mayEndAt (e' t) n) Same := by
  have hfollow := he.follow
  unfold Parser.mayEndAt
  cases hs : e.follow with
  | none =>
    rw [hs] at hfollow
    have hnone : ∀ t, (e' t).follow = none := hfollow
    simp only [hnone]
    exact .pure rfl
  | some s =>
    rw [hs] at hfollow
    obtain ⟨r, hr, hreached⟩ := hfollow
    simp only [hr, he.length, he.subject]
    split
    · exact .pure rfl
    · refine .bind (he.skipFrom hc n) fun start start' hstart => ?_
      rw [hstart]
      by_cases hmoved : n < start
      · simp only [if_pos hmoved]
        exact .pure rfl
      · simp only [if_neg hmoved]
        refine .bind (hreached b c hc e.subject n) fun stop stop' hstop => ?_
        rw [hstop]
        exact .pure rfl

theorem bounded {p : Parser String} {p' : Nat → Parser String} (hp : p.ReachedBy scope p')
    (message : String) : (p.bounded message).ReachedBy scope fun t => (p' t).bounded message := by
  intro b c hc e e' he n
  refine .bindReply (hp b c hc e e' he n) (fun stop text => ?_) fun _ _ => .pure (.fail _ _)
  refine .bind (mayEndAt he hc stop) fun may may' hmay => ?_
  rw [hmay]
  cases may with
  | true => exact .pure (.ok stop text)
  | false => exact .bind (.emit _ _) fun _ _ _ => .pure (.fail _ _)

/-! ### Sequences -/

theorem bind {p : Parser α} {p' : Nat → Parser α} {f : α → Parser β} {f' : Nat → α → Parser β}
    (hp : p.ReachedBy scope p') (hf : ∀ a, (f a).ReachedBy scope fun t => f' t a) :
    (p.bind f).ReachedBy scope fun t => (p' t).bind (f' t) :=
  fun b c hc e e' he n => .bindReply (hp b c hc e e' he n)
    (fun stop a => hf a b c hc e e' he stop) fun _ _ => .pure (.fail _ _)

theorem map {p : Parser α} {p' : Nat → Parser α} (f : α → β) (hp : p.ReachedBy scope p') :
    (p.map f).ReachedBy scope fun t => (p' t).map f := by
  simp only [map_eq_bind]
  exact hp.bind fun a => succeed (f a)

theorem bindMap {p : Parser α} {p' : Nat → Parser α} {k : α → Parser β} {k' : Nat → α → Parser β}
    (f : α → β → γ) (hp : p.ReachedBy scope p') (hk : ∀ a, (k a).ReachedBy scope fun t => k' t a) :
    (p.bindMap k f).ReachedBy scope fun t => (p' t).bindMap (k' t) f := by
  simp only [bindMap_eq_bind]
  exact hp.bind fun a => (hk a).map (f a)

theorem seqRight {p : Parser α} {p' : Nat → Parser α} {q : Parser β} {q' : Nat → Parser β}
    (hp : p.ReachedBy scope p') (hq : q.ReachedBy scope q') :
    (p.seqRight q).ReachedBy scope fun t => (p' t).seqRight (q' t) :=
  hp.bind fun _ => hq

theorem seqLeft {p : Parser α} {p' : Nat → Parser α} {q : Parser β} {q' : Nat → Parser β}
    (hp : p.ReachedBy scope p') (hq : q.ReachedBy scope q') :
    (p.seqLeft q).ReachedBy scope fun t => (p' t).seqLeft (q' t) := by
  simp only [seqLeft_eq_bind]
  exact hp.bind fun a => hq.map fun _ => a

/-! ### Parsers that go back -/

/-- Alternatives that belong together, told by what they are numbered with. -/
theorem firstOf {ι : Type} {p : ι → Parser α} {p' : Nat → ι → Parser α}
    (hp : ∀ i, (p i).ReachedBy scope fun t => p' t i) (is : List ι) {b : Nat} {c : Nat → Nat}
    (hc : Grows c) {e : Env} {e' : Nat → Env} (he : e.ReachedBy scope e') (n index : Nat)
    {failure : Reply α} (hfailure : Reply.Alike e e' failure fun _ => failure) :
    Eval.ReachedBy scope b c (Parser.firstOf index failure (is.map p) e n)
      (fun t => Parser.firstOf index failure (is.map (p' t)) (e' t) n) (Reply.Alike e e') := by
  induction is generalizing index failure with
  | nil => exact .pure hfailure
  | cons i is ih =>
    refine .bindReply (hp i b c hc e e' he n) (fun stop a => .pure (.ok stop a)) fun m about => ?_
    exact .bind (.emit _ _) fun _ _ _ => ih (index + 1) (.fail m about)

theorem choice {m : Nat} {p : Fin m → Parser α} {p' : Nat → Fin m → Parser α}
    (hp : ∀ i, (p i).ReachedBy scope fun t => p' t i) :
    (Parser.choice (List.ofFn p)).ReachedBy scope fun t => .choice (List.ofFn (p' t)) := by
  intro b c hc e e' he n
  simp only [Parser.choice, List.ofFn_eq_map]
  exact firstOf hp (List.finRange m) hc he n 0 (.fail _ _)

theorem orElse {p q : Parser α} {p' q' : Nat → Parser α} (hp : p.ReachedBy scope p')
    (hq : q.ReachedBy scope q') : (p.orElse q).ReachedBy scope fun t => (p' t).orElse (q' t) :=
  fun b c hc e e' he n => .bindReply (hp b c hc e e' he n) (fun stop a => .pure (.ok stop a))
    fun _ _ => .bind (.emit _ _) fun _ _ _ => hq b c hc e e' he n

theorem withDefault {p : Parser α} {p' : Nat → Parser α} (hp : p.ReachedBy scope p')
    (default : α) : (p.withDefault default).ReachedBy scope fun t => (p' t).withDefault default :=
  fun b c hc e e' he n => .bindReply (hp b c hc e e' he n) (fun stop a => .pure (.ok stop a))
    fun _ _ => .pure (.ok n default)

theorem optional {p : Parser α} {p' : Nat → Parser α} (hp : p.ReachedBy scope p') :
    p.optional.ReachedBy scope fun t => (p' t).optional :=
  (hp.map some).withDefault none

theorem lookahead {p : Parser α} {p' : Nat → Parser α} (hp : p.ReachedBy scope p') :
    p.lookahead.ReachedBy scope fun t => (p' t).lookahead :=
  fun b c hc e e' he n => .bindReply (hp b c hc e e' he n) (fun _ a => .pure (.ok n a))
    fun _ _ => .pure (.fail _ _)

theorem notAhead {p : Parser α} {p' : Nat → Parser α} (hp : p.ReachedBy scope p') :
    p.notAhead.ReachedBy scope fun t => (p' t).notAhead :=
  fun b c hc e e' he n => .bindReply (hp b c hc e e' he n) (fun _ _ => .pure (.fail _ _))
    fun _ _ => .pure (.ok n ())

theorem filter {p : Parser α} {p' : Nat → Parser α} (hp : p.ReachedBy scope p')
    (accept : α → Bool) : (p.filter accept).ReachedBy scope fun t => (p' t).filter accept := by
  intro b c hc e e' he n
  refine .bindReply (hp b c hc e e' he n) (fun stop a => ?_) fun _ _ => .pure (.fail _ _)
  cases haccept : accept a with
  | true =>
    simp only [haccept, if_true]
    exact .pure (.ok stop a)
  | false =>
    simp only [haccept]
    exact .pure (.fail _ _)

theorem mapFailure {p : Parser α} {p' : Nat → Parser α} (hp : p.ReachedBy scope p')
    (f : String → Option Nat → String × Option Nat) :
    (p.mapFailure f).ReachedBy scope fun t => (p' t).mapFailure f := by
  intro b c hc e e' he n
  refine .bindReply (hp b c hc e e' he n) (fun stop a => .pure (.ok stop a)) fun m about => ?_
  by_cases hempty : (f m about).1.isEmpty = true
  · simp only [if_pos hempty]
    exact .stop _
  · simp only [if_neg hempty]
    exact .pure (.fail _ _)

theorem mapMessage {p : Parser α} {p' : Nat → Parser α} (hp : p.ReachedBy scope p')
    (f : String → String) : (p.mapMessage f).ReachedBy scope fun t => (p' t).mapMessage f :=
  hp.mapFailure _

theorem mapMessageAt {p : Parser α} {p' : Nat → Parser α} (hp : p.ReachedBy scope p')
    (f : String → String) (g : Option Nat → Nat) :
    (p.mapMessageAt f g).ReachedBy scope fun t => (p' t).mapMessageAt f g :=
  hp.mapFailure _

/-! ### Repetition -/

/-- Rounds that belong together: there is none, or they differ in the environment
alone. -/
inductive RoundAlike (e : Env) (e' : Nat → Env) :
    Option (Round δ α) → (Nat → Option (Round δ α)) → Prop where
  | none : RoundAlike e e' none fun _ => none
  | some (stop : Nat) (d : δ) (a : α) :
      RoundAlike e e' (some ⟨e, stop, d, a⟩) fun t => some ⟨e' t, stop, d, a⟩

/-- Chains that belong together: they differ in the environments alone. -/
inductive ChainAlike (e : Env) (e' : Nat → Env) :
    List (Round δ α) → (Nat → List (Round δ α)) → Prop where
  | nil : ChainAlike e e' [] fun _ => []
  | cons (stop : Nat) (d : δ) (a : α) {chain : List (Round δ α)}
      {chain' : Nat → List (Round δ α)} (rest : ChainAlike e e' chain chain') :
      ChainAlike e e' (⟨e, stop, d, a⟩ :: chain) fun t => ⟨e' t, stop, d, a⟩ :: chain' t

namespace ChainAlike

variable {e : Env} {e' : Nat → Env} {chain : List (Round δ α)} {chain' : Nat → List (Round δ α)}

/-- They end in the same place. -/
theorem reply (h : ChainAlike e e' chain chain') (start : Nat) (a : α) :
    Reply.Alike e e' (Round.reply e start chain a)
      fun t => Round.reply (e' t) start (chain' t) a := by
  induction h generalizing start with
  | nil => exact .ok start a
  | cons stop d b rest ih => exact ih stop

theorem foldLeft (h : ChainAlike e e' chain chain') (f : α → δ → α → α) (first : α) (t : Nat) :
    Round.foldLeft f first (chain' t) = Round.foldLeft f first chain := by
  induction h generalizing first with
  | nil => rfl
  | cons stop d b rest ih => exact ih (f first d b)

theorem foldRight (h : ChainAlike e e' chain chain') (f : α → δ → α → α) (first : α) (t : Nat) :
    Round.foldRight f first (chain' t) = Round.foldRight f first chain := by
  induction h generalizing first with
  | nil => rfl
  | cons stop d b rest ih => exact congrArg (f first d) (ih b)

end ChainAlike

theorem round {item : Parser α} {item' : Nat → Parser α} {delimiter : Parser δ}
    {delimiter' : Nat → Parser δ} (hitem : item.ReachedBy scope item')
    (hdelimiter : delimiter.ReachedBy scope delimiter') {b : Nat} {c : Nat → Nat} (hc : Grows c)
    {e : Env} {e' : Nat → Env} (he : e.ReachedBy scope e') (n : Nat) :
    Eval.ReachedBy scope b c (Parser.round item delimiter e n)
      (fun t => Parser.round (item' t) (delimiter' t) (e' t) n) (RoundAlike e e') := by
  have hend : ∀ reason, Eval.ReachedBy scope b c
      (Eval.emit reason >>= fun _ => Pure.pure (none : Option (Round δ α)))
      (fun _ => Eval.emit reason >>= fun _ => Pure.pure (none : Option (Round δ α)))
      (RoundAlike e e') :=
    fun _ => .bind (.emit _ _) fun _ _ _ => .pure .none
  refine .bindReply (hdelimiter b c hc e e' he n) (fun middle d => ?_) fun _ _ => hend _
  refine .bindReply (hitem b c hc e e' he middle) (fun stop a => ?_) fun _ _ => hend _
  by_cases hadvances : advances n stop = true
  · simp only [if_pos hadvances]
    exact .pure (.some stop d a)
  · simp only [if_neg hadvances]
    exact hend _

theorem rounds {item : Parser α} {item' : Nat → Parser α} {delimiter : Parser δ}
    {delimiter' : Nat → Parser δ} (hitem : item.ReachedBy scope item')
    (hdelimiter : delimiter.ReachedBy scope delimiter') (left : Nat) {b : Nat} {c : Nat → Nat}
    (hc : Grows c) {e : Env} {e' : Nat → Env} (he : e.ReachedBy scope e') (n : Nat) :
    Eval.ReachedBy scope b c (Parser.rounds item delimiter left e n)
      (fun t => Parser.rounds (item' t) (delimiter' t) left (e' t) n) (ChainAlike e e') := by
  induction left generalizing n with
  | zero =>
    unfold Parser.rounds
    refine .bind (round hitem hdelimiter hc he n) fun r r' hr => ?_
    cases hr with
    | none => exact .pure .nil
    | some stop d a => exact .pure .nil
  | succ left ih =>
    unfold Parser.rounds
    refine .bind (round hitem hdelimiter hc he n) fun r r' hr => ?_
    cases hr with
    | none => exact .pure .nil
    | some stop d a => exact .bind (ih stop) fun chain chain' h => .pure (.cons stop d a h)

/-- Repetitions whose value is made of the items and delimiters of a chain. -/
theorem repetition {item : Parser α} {item' : Nat → Parser α} {delimiter : Parser δ}
    {delimiter' : Nat → Parser δ} (hitem : item.ReachedBy scope item')
    (hdelimiter : delimiter.ReachedBy scope delimiter') (value : α → List (Round δ α) → α)
    (hvalue : ∀ {e e' chain chain'}, ChainAlike e e' chain chain' → ∀ first t,
      value first (chain' t) = value first chain) :
    (Parser.repetition item delimiter value).ReachedBy scope
      fun t => Parser.repetition (item' t) (delimiter' t) value := by
  intro b c hc e e' he n
  refine .bindReply (hitem b c hc e e' he n) (fun stop first => ?_) fun _ _ => .pure (.fail _ _)
  refine .bind (rounds hitem hdelimiter _ hc he stop) fun chain chain' h => ?_
  simp only [hvalue h first]
  exact .pure (h.reply stop _)

theorem foldSep {item : Parser α} {item' : Nat → Parser α} {delimiter : Parser δ}
    {delimiter' : Nat → Parser δ} (hitem : item.ReachedBy scope item')
    (hdelimiter : delimiter.ReachedBy scope delimiter') (f : α → δ → α → α) :
    (item.foldSep delimiter f).ReachedBy scope fun t => (item' t).foldSep (delimiter' t) f := by
  simp only [foldSep_eq_repetition]
  exact hitem.repetition hdelimiter _ fun h first t => h.foldLeft f first t

theorem foldSepRight {item : Parser α} {item' : Nat → Parser α} {delimiter : Parser δ}
    {delimiter' : Nat → Parser δ} (hitem : item.ReachedBy scope item')
    (hdelimiter : delimiter.ReachedBy scope delimiter') (f : α → δ → α → α) :
    (item.foldSepRight delimiter f).ReachedBy scope
      fun t => (item' t).foldSepRight (delimiter' t) f := by
  simp only [foldSepRight_eq_repetition]
  exact hitem.repetition hdelimiter _ fun h first t => h.foldRight f first t

theorem foldMany1 {item : Parser α} {item' : Nat → Parser α} (hitem : item.ReachedBy scope item')
    (f : α → α → α) : (item.foldMany1 f).ReachedBy scope fun t => (item' t).foldMany1 f :=
  hitem.foldSep (token _ _) _

theorem foldMany {item : Parser α} {item' : Nat → Parser α} (hitem : item.ReachedBy scope item')
    (f : α → α → α) (default : α) :
    (item.foldMany f default).ReachedBy scope fun t => (item' t).foldMany f default :=
  (hitem.foldMany1 f).withDefault default

/-! ### Other environments and other texts -/

/-- What follows goes on in the environment of the call. -/
theorem inEnvM {p : Parser α} {p' : Nat → Parser α} {change : Env → Eval Env}
    {change' : Nat → Env → Eval Env} (hp : p.ReachedBy scope p')
    (hchange : ∀ b c, Grows c → ∀ e e', Env.ReachedBy scope e e' →
      Eval.ReachedBy scope b c (change e) (fun t => change' t (e' t)) (Env.ReachedBy scope)) :
    (p.inEnvM change).ReachedBy scope fun t => (p' t).inEnvM (change' t) := by
  intro b c hc e e' he n
  refine .bind (hchange b c hc e e' he) fun e₁ e₁' he₁ => ?_
  refine .bindReply (hp b c hc e₁ e₁' he₁ n) (fun stop a => ?_) fun message about => ?_
  · exact .pure (.ok stop a)
  · exact .pure (.fail message about)

theorem inEnv {p : Parser α} {p' : Nat → Parser α} {change : Env → Env} (hp : p.ReachedBy scope p')
    (hchange : ∀ e e', Env.ReachedBy scope e e' →
      (change e).ReachedBy scope fun t => change (e' t)) :
    (p.inEnv change).ReachedBy scope fun t => (p' t).inEnv change := by
  simp only [Construction.inEnv_eq_inEnvM]
  exact hp.inEnvM fun b c hc e e' he => .pure (hchange e e' he)

theorem onText {p : Parser α} {p' : Nat → Parser α} (hp : p.ReachedBy scope p')
    (subject : Text) : (p.onText subject).ReachedBy scope fun t => (p' t).onText subject := by
  intro b c hc e e' he n
  refine .bindReply (hp b c hc _ _ (he.withSubject subject) 0) (fun stop a => ?_) fun _ _ => ?_
  · exact .pure (.ok n a)
  · exact .pure (.fail _ _)

theorem fresh {build : Nat → Parser α} {build' : Nat → Nat → Parser α}
    (hbuild : ∀ s, (build s).ReachedBy scope fun t => build' t s) :
    (Parser.fresh fun s => .ok (build s)).ReachedBy scope
      fun t => Parser.fresh fun s => .ok (build' t s) := by
  intro b c hc e e' he n
  refine .bind .openScope fun s s' ⟨hs, hne⟩ => ?_
  -- the same scope was opened on both sides, so the same part is built
  rw [hs]
  simp only [Eval.ofExcept, pure_bind]
  refine .bindReply (hbuild s b c hc e e' he n) (fun stop a => ?_) fun message about => ?_
  · exact .bind (.closeScope hne) fun _ _ _ => .pure (.ok stop a)
  · exact .bind (.closeScope hne) fun _ _ _ => .pure (.fail message about)

/-- What cannot be built is not done. -/
theorem unbuilt (cause : Fault) (p' : Nat → Parser α) :
    (Parser.fresh fun _ => .error cause).ReachedBy scope p' := by
  intro b c _ e e' _ n k a log k' _ h
  obtain ⟨s, log₁, k₁, log₂, -, h, -⟩ := Eval.bind_eq_done_iff.mp h
  -- after its scope is opened, the run stops where the part would be built
  obtain ⟨p, log₃, k₂, log₄, hstop, -, -⟩ := Eval.bind_eq_done_iff.mp h
  exact absurd hstop (by simp [Eval.ofExcept, Eval.stop])

end ReachedBy

end Parser

end Descent
