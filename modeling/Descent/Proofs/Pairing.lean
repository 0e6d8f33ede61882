import Descent.Proofs.Fixpoint
import Descent.Proofs.Following
import Descent.Proofs.Sequencing

/-!
# Runs in other scopes

A parser may run twice in one run: ahead of itself, or once for each of several
alternatives. The second time it finds another state. Grammars are tied that were not,
and scopes have been opened and closed in between, so that a part that is built on the
spot gets a scope with another number. This module compares two runs that begin in
different states, and says that they end alike.

**Pairings.** Scopes have numbers, and nothing looks at the numbers; what matters is
which of them are alive. So two runs are compared along a `Pairing` of their scopes, one
to one, and a state belongs to another if of two scopes that are paired both are alive or
neither is (`Knots.Paired`). Which grammars are tied is not compared. A pairing grows
while the two runs go on (`w ≤ w'`): where both open a scope, the two new ones are
paired. Evaluations, scans, environments and parsers that are paired stay so in every
larger pairing.

A scope that neither run closes may correspond to more than one. A parser that is owned
is like each of the copies that are built of it for one call (`Pairing.lasts`), and it
may besides be used by the environment of both runs.

**What is left alone.** A run opens scopes and closes those that it opened; whether a
scope is alive that was opened before is the same afterwards (`Knots.Keeps`). That is
part of what `Eval.Paired` says, since it is what lets a run begin once more: the state
that a run leaves is paired with the state that it began in, along the scopes that were
open then.

Values that are paired are equal, and environments that are paired skip, and may be
followed by, the same.

**What is reported.** Two runs may be asked to remark the same as well: everything that
they report but the tying of grammars, which depends on what was tied before. Most of what
is said here holds with that and without it, so it is said of both (`PairedOn told`, where
`told` says whether the remarks are compared). A parser that runs once instead of twice
remarks less, and is `Paired` only: the remarks are not compared.
-/

namespace Descent

/-! ## Pairings and states -/

/-- **Which scopes of two runs correspond**, one to one. A scope of the right that lasts, since
neither run closes it, may correspond to several of the left. -/
structure Pairing where
  rel : Nat → Nat → Prop
  lasts : Nat → Prop
  unique : ∀ {s t s' t' : Nat}, rel s t → rel s' t' → ¬ lasts t → (s = s' ↔ t = t')

namespace Pairing

/-- A larger pairing pairs more scopes, and no others last. -/
instance : Preorder Pairing where
  le w w' := (∀ ⦃s t⦄, w.rel s t → w'.rel s t) ∧ ∀ ⦃t⦄, w'.lasts t → w.lasts t
  le_refl _ := ⟨fun _ _ h => h, fun _ h => h⟩
  le_trans _ _ _ h h' := ⟨fun _ _ hst => h'.1 (h.1 hst), fun _ ht => h.2 (h'.2 ht)⟩

/-- The first scopes, each paired with itself. -/
def below (n : Nat) : Pairing where
  rel s t := s = t ∧ s < n
  lasts _ := False
  unique := by
    rintro s t s' t' ⟨rfl, -⟩ ⟨rfl, -⟩ -
    exact Iff.rfl

variable {w : Pairing} {s t : Nat}

/-- One more pair: a scope that is paired with none, and one that is paired with none or
lasts. -/
def add (w : Pairing) (s t : Nat) (hs : ∀ t', ¬ w.rel s t')
    (ht : ∀ s', w.rel s' t → w.lasts t) : Pairing where
  rel s' t' := (s' = s ∧ t' = t) ∨ w.rel s' t'
  lasts := w.lasts
  unique := by
    rintro s₁ t₁ s₂ t₂ (⟨rfl, rfl⟩ | h₁) (⟨rfl, rfl⟩ | h₂) hlasts
    · simp
    · exact iff_of_false (fun h => hs t₂ (h ▸ h₂)) fun h => hlasts (ht s₂ (h ▸ h₂))
    · exact iff_of_false (fun h => hs t₁ (h ▸ h₁)) fun h => hlasts (h ▸ ht s₁ (h ▸ h₁))
    · exact w.unique h₁ h₂ hlasts

theorem le_add {hs : ∀ t', ¬ w.rel s t'} {ht : ∀ s', w.rel s' t → w.lasts t} :
    w ≤ w.add s t hs ht :=
  ⟨fun _ _ h => .inr h, fun _ h => h⟩

end Pairing

namespace Knots

/-- **States whose scopes correspond**: those that are paired have been opened, and both
are alive or neither. Scopes that last have been opened before. -/
structure Paired (w : Pairing) (k l : Knots) : Prop where
  opened : ∀ {s t}, w.rel s t → s < k.nextScope ∧ t < l.nextScope
  live : ∀ {s t}, w.rel s t → (s ∈ k.live ↔ t ∈ l.live)
  lasting : ∀ {t}, w.lasts t → t < l.nextScope

/-- **What a run leaves alone**: scopes that were opened before it are alive afterwards
if they were before. -/
structure Keeps (k k' : Knots) : Prop where
  nextScope : k.nextScope ≤ k'.nextScope
  live : ∀ {s}, s < k.nextScope → (s ∈ k'.live ↔ s ∈ k.live)

variable {w : Pairing} {k k' k'' l l' : Knots}

namespace Keeps

theorem refl (k : Knots) : k.Keeps k := ⟨Nat.le_refl _, fun _ => Iff.rfl⟩

theorem trans (h : k.Keeps k') (h' : k'.Keeps k'') : k.Keeps k'' :=
  ⟨Nat.le_trans h.nextScope h'.nextScope, fun hs =>
    (h'.live (Nat.lt_of_lt_of_le hs h.nextScope)).trans (h.live hs)⟩

/-- The state afterwards is paired with the state before. -/
theorem paired (h : k.Keeps k') : k'.Paired (.below k.nextScope) k := by
  refine ⟨?_, ?_, False.elim⟩
  · rintro s t ⟨rfl, hs⟩
    exact ⟨Nat.lt_of_lt_of_le hs h.nextScope, hs⟩
  · rintro s t ⟨rfl, hs⟩
    exact h.live hs

/-- A scope that was opened is closed: that leaves alone what was opened before. -/
theorem close (h : k.opened.Keeps k') : k.Keeps (k'.without (· == k.nextScope)) := by
  refine ⟨Nat.le_of_succ_le h.nextScope, fun {s} hs => ?_⟩
  have hne : s ≠ k.nextScope := Nat.ne_of_lt hs
  have hlive : s ∈ k'.live ↔ s ∈ k.live := by
    rw [h.live (Nat.lt_succ_of_lt hs)]
    simp [opened, hne]
  simp [without, hlive, hne]

end Keeps

namespace Paired

theorem refl (k : Knots) : k.Paired (.below k.nextScope) k := (Keeps.refl k).paired

/-- **Runs leave states that are still paired**, along the scopes that were. -/
theorem keeps (h : k.Paired w l) (hk : k.Keeps k') (hl : l.Keeps l') : k'.Paired w l' := by
  refine ⟨fun hst => ?_, fun hst => ?_, fun ht => Nat.lt_of_lt_of_le (h.lasting ht) hl.nextScope⟩
  · obtain ⟨hs, ht⟩ := h.opened hst
    exact ⟨Nat.lt_of_lt_of_le hs hk.nextScope, Nat.lt_of_lt_of_le ht hl.nextScope⟩
  · obtain ⟨hs, ht⟩ := h.opened hst
    rw [hk.live hs, hl.live ht]
    exact h.live hst

/-- The scopes to be opened next are paired with none. -/
theorem nextScope_left (h : k.Paired w l) (t : Nat) : ¬ w.rel k.nextScope t :=
  fun hst => Nat.lt_irrefl _ (h.opened hst).1

theorem nextScope_right (h : k.Paired w l) (s : Nat) : ¬ w.rel s l.nextScope :=
  fun hst => Nat.lt_irrefl _ (h.opened hst).2

/-- The pairing of the scopes that are opened next. -/
def next (h : k.Paired w l) : Pairing :=
  w.add k.nextScope l.nextScope h.nextScope_left fun s hst => absurd hst (h.nextScope_right s)

theorem le_next (h : k.Paired w l) : w ≤ h.next := Pairing.le_add

theorem next_rel (h : k.Paired w l) : h.next.rel k.nextScope l.nextScope := .inl ⟨rfl, rfl⟩

/-- What is opened next does not last, now or later. -/
theorem not_lasts_next (h : k.Paired w l) {w' : Pairing} (hw : h.next ≤ w') :
    ¬ w'.lasts l.nextScope :=
  fun ht => Nat.lt_irrefl _ (h.lasting (hw.2 ht))

/-- Two scopes are opened, and they are paired. -/
theorem opened_next (h : k.Paired w l) : k.opened.Paired h.next l.opened := by
  refine ⟨?_, ?_, fun ht => Nat.lt_succ_of_lt (h.lasting ht)⟩
  · rintro s t (⟨rfl, rfl⟩ | hst)
    · exact ⟨Nat.lt_succ_self _, Nat.lt_succ_self _⟩
    · exact ⟨Nat.lt_succ_of_lt (h.opened hst).1, Nat.lt_succ_of_lt (h.opened hst).2⟩
  · rintro s t (⟨rfl, rfl⟩ | hst)
    · simp [Knots.opened]
    · have hs : s ≠ k.nextScope := Nat.ne_of_lt (h.opened hst).1
      have ht : t ≠ l.nextScope := Nat.ne_of_lt (h.opened hst).2
      simp [Knots.opened, hs, ht, h.live hst]

/-- Two scopes that are paired are closed, and the one does not last. -/
theorem without {s t : Nat} (h : k.Paired w l) (hst : w.rel s t) (ht : ¬ w.lasts t) :
    (k.without (· == s)).Paired w (l.without (· == t)) := by
  refine ⟨h.opened, fun {s' t'} hst' => ?_, h.lasting⟩
  have hne : s' = s ↔ t' = t := by
    rw [eq_comm, w.unique hst hst' ht, eq_comm]
  simp [Knots.without, h.live hst', hne]

end Paired

end Knots

/-! ## Evaluations -/

/-- **Ends of two runs that are paired.** Both are done, and left alone what was there
before; or both are stopped by the same fault, or both are given up. If it is `told`, both
remarked the same. -/
inductive Outcome.PairedOn {α β : Type} (told : Prop) (w : Pairing) (k l : Knots)
    (P : Pairing → α → β → Prop) : Outcome α → Outcome β → Prop where
  | done {w' : Pairing} {a : α} {b : β} {log log' : List Event} {k' l' : Knots} (later : w ≤ w')
      (left : k.Keeps k') (right : l.Keeps l') (states : k'.Paired w' l') (values : P w' a b)
      (reports : told → remarks log = remarks log') :
      PairedOn told w k l P (.done a log k') (.done b log' l')
  | fault {cause : Fault} {log log' : List Event} {k' l' : Knots}
      (reports : told → remarks log = remarks log') :
      PairedOn told w k l P (.fault cause log k') (.fault cause log' l')
  | exhausted : PairedOn told w k l P .exhausted .exhausted

/-- Ends of two runs that are paired, whatever was reported. -/
abbrev Outcome.Paired {α β : Type} (w : Pairing) (k l : Knots) (P : Pairing → α → β → Prop) :
    Outcome α → Outcome β → Prop :=
  PairedOn False w k l P

namespace Outcome.PairedOn

variable {α β : Type} {told : Prop} {w w' : Pairing} {k l k' l' : Knots} {x : Outcome α}
variable {y : Outcome β} {P Q : Pairing → α → β → Prop}

/-- What comes second, with what was reported first. -/
theorem after (h : PairedOn told w' k' l' P x y) (hw : w ≤ w') (hk : k.Keeps k')
    (hl : l.Keeps l') {log log' : List Event} (hlog : told → remarks log = remarks log') :
    PairedOn told w k l P (x.after log) (y.after log') := by
  have happend : ∀ {log₁ log₁' : List Event}, (told → remarks log₁ = remarks log₁') →
      told → remarks (log ++ log₁) = remarks (log' ++ log₁') := by
    intro log₁ log₁' h ht
    rw [remarks_append, remarks_append, hlog ht, h ht]
  cases h with
  | done later left right states values reports =>
    exact .done (le_trans hw later) (hk.trans left) (hl.trans right) states values
      (happend reports)
  | fault reports => exact .fault (happend reports)
  | exhausted => exact .exhausted

/-- If the right is done, so is the left. -/
theorem exists_left {b : β} {log' : List Event} (h : PairedOn told w k l P x (.done b log' l')) :
    ∃ w' a log k', w ≤ w' ∧ k.Keeps k' ∧ l.Keeps l' ∧ k'.Paired w' l' ∧ P w' a b
      ∧ x = .done a log k' := by
  cases h with
  | done later left right states values =>
    exact ⟨_, _, _, _, later, left, right, states, values, rfl⟩

/-- If the right is stopped, so is the left, by the same fault. -/
theorem fault_left {cause : Fault} {log' : List Event}
    (h : PairedOn told w k l P x (.fault cause log' l')) : ∃ log k', x = .fault cause log k' := by
  cases h with
  | fault => exact ⟨_, _, rfl⟩

/-- If the right is given up, so is the left. -/
theorem exhausted_left (h : PairedOn told w k l P x .exhausted) : x = .exhausted := by
  cases h with
  | exhausted => rfl

end Outcome.PairedOn

namespace Outcome.Paired

variable {α β : Type} {w w' : Pairing} {k l k' l' : Knots} {P : Pairing → α → β → Prop}

/-- Both are done. -/
theorem done {a : α} {b : β} (log log' : List Event) (later : w ≤ w') (left : k.Keeps k')
    (right : l.Keeps l') (states : k'.Paired w' l') (values : P w' a b) :
    Paired w k l P (.done a log k') (.done b log' l') :=
  PairedOn.done later left right states values False.elim

/-- Both are stopped. -/
theorem fault (cause : Fault) (log log' : List Event) :
    Paired w k l P (.fault cause log k') (.fault cause log' l') :=
  PairedOn.fault False.elim

/-- What comes second, whatever was reported first. -/
theorem after {x : Outcome α} {y : Outcome β} (h : Paired w' k' l' P x y) (hw : w ≤ w')
    (hk : k.Keeps k') (hl : l.Keeps l') (log log' : List Event) :
    Paired w k l P (x.after log) (y.after log') :=
  PairedOn.after h hw hk hl False.elim

end Outcome.Paired

namespace Eval

variable {α β γ δ : Type} {told : Prop}

/-- **Evaluations that are paired** end so, at the same budget, from any states whose
scopes correspond. -/
def PairedOn (told : Prop) (w : Pairing) (x : Eval α) (y : Eval β)
    (P : Pairing → α → β → Prop) : Prop :=
  ∀ n k l, k.Paired w l → Outcome.PairedOn told w k l P (x n k) (y n l)

/-- Evaluations that are paired, whatever they report. -/
abbrev Paired (w : Pairing) (x : Eval α) (y : Eval β) (P : Pairing → α → β → Prop) : Prop :=
  PairedOn False w x y P

namespace PairedOn

variable {w : Pairing} {x : Eval α} {y : Eval β} {f : α → Eval γ} {g : β → Eval δ}
variable {P : Pairing → α → β → Prop} {Q : Pairing → γ → δ → Prop}

theorem pure {a : α} {b : β} (h : P w a b) : PairedOn told w (Pure.pure a) (Pure.pure b) P :=
  fun _ k l hkl => .done le_rfl (.refl k) (.refl l) hkl h fun _ => rfl

/-- **What comes second is paired** in every pairing to which this one may have grown, for
values that belong together there. -/
theorem bind (hx : PairedOn told w x y P)
    (hf : ∀ w', w ≤ w' → ∀ a b, P w' a b → PairedOn told w' (f a) (g b) Q) :
    PairedOn told w (x >>= f) (y >>= g) Q := by
  intro n k l hkl
  have hends := hx n k l hkl
  rw [bind_apply, bind_apply]
  generalize x n k = ends at hends ⊢
  generalize y n l = ends' at hends ⊢
  cases hends with
  | done later left right states values reports =>
    exact (hf _ later _ _ values n _ _ states).after later left right reports
  | fault reports => exact .fault reports
  | exhausted => exact .exhausted

/-- The same event on both sides. -/
theorem emit (e : Event) : PairedOn told w (Eval.emit e) (Eval.emit e) fun _ _ _ => True :=
  fun _ k l hkl => .done le_rfl (.refl k) (.refl l) hkl trivial fun _ => rfl

/-- After the same event on both sides. -/
theorem emit_bind {z : Eval γ} {z' : Eval δ} (e : Event)
    (h : ∀ w', w ≤ w' → PairedOn told w' z z' Q) :
    PairedOn told w (Eval.emit e >>= fun _ => z) (Eval.emit e >>= fun _ => z') Q :=
  .bind (emit e) fun w' hw _ _ _ => h w' hw

theorem stop (cause : Fault) : PairedOn told w (Eval.stop cause) (Eval.stop cause) P :=
  fun _ _ _ _ => .fault fun _ => rfl

theorem giveUp : PairedOn told w Eval.giveUp Eval.giveUp P := fun _ _ _ _ => .exhausted

theorem budget : PairedOn told w Eval.budget Eval.budget fun _ => Eq :=
  fun _ k l hkl => .done le_rfl (.refl k) (.refl l) hkl rfl fun _ => rfl

theorem withBudget {n : Nat} (h : PairedOn told w x y P) :
    PairedOn told w (Eval.withBudget n x) (Eval.withBudget n y) P :=
  fun _ k l hkl => h n k l hkl

/-- **Two parts in scopes of their own**, which are paired while they run. -/
theorem inScope {x : Nat → Eval α} {y : Nat → Eval β}
    (h : ∀ w', w ≤ w' → ∀ s t, w'.rel s t → PairedOn told w' (x s) (y t) P) :
    PairedOn told w
      (Eval.openScope >>= fun s => x s >>= fun a => Eval.closeScope s >>= fun _ => Pure.pure a)
      (Eval.openScope >>= fun t => y t >>= fun b => Eval.closeScope t >>= fun _ => Pure.pure b)
      P := by
  intro n k l hkl
  rw [openScope_bind_apply, openScope_bind_apply, bind_apply, bind_apply]
  have hends := h hkl.next hkl.le_next _ _ hkl.next_rel n _ _ hkl.opened_next
  generalize x k.nextScope n k.opened = ends at hends ⊢
  generalize y l.nextScope n l.opened = ends' at hends ⊢
  cases hends with
  | done later left right states values reports =>
    refine .done (le_trans hkl.le_next later) left.close right.close
      (states.without (later.1 hkl.next_rel) (hkl.not_lasts_next later)) values fun ht => ?_
    simp only [List.append_nil, reports ht]
  | fault reports => exact .fault reports
  | exhausted => exact .exhausted

/-- What ends alike and leaves the same state is as good, unless the remarks are compared. -/
theorem agree {x' : Eval α} {y' : Eval β} (h : Paired w x y P) (hx : Agree Eq x x')
    (hy : Agree Eq y y') : Paired w x' y' P := by
  intro n k l hkl
  have hends := h n k l hkl
  have hends₁ := hx n k
  have hends₂ := hy n l
  generalize x n k = o at hends hends₁
  generalize y n l = o' at hends hends₂
  generalize x' n k = o₁ at hends₁ ⊢
  generalize y' n l = o₂ at hends₂ ⊢
  cases hends with
  | done later left right states values =>
    cases hends₁ with
    | done ha =>
      cases hends₂ with
      | done hb => exact Outcome.Paired.done _ _ later left right states (ha ▸ hb ▸ values)
  | fault =>
    cases hends₁ with
    | fault =>
      cases hends₂ with
      | fault => exact Outcome.Paired.fault _ _ _
  | exhausted =>
    cases hends₁ with
    | exhausted =>
      cases hends₂ with
      | exhausted => exact .exhausted

end PairedOn

end Eval

/-! ## Scans, environments and replies -/

/-- Scans that are paired end in the same place, now and later. -/
def Scan.PairedOn (told : Prop) (w : Pairing) (s s' : Scan) : Prop :=
  ∀ ⦃w'⦄, w ≤ w' → ∀ subject n, Eval.PairedOn told w' (s subject n) (s' subject n) fun _ => Eq

/-- **Environments that are paired** have the same subject and scans that are paired. -/
structure Env.PairedOn (told : Prop) (w : Pairing) (env env' : Env) : Prop where
  subject : env.subject = env'.subject
  skip : Option.Rel (Scan.PairedOn told w) env.skip env'.skip
  follow : Option.Rel (Scan.PairedOn told w) env.follow env'.follow

/-- **Replies that are paired**: the same failure, or a success with the same position and
value that goes on in paired environments. -/
inductive Reply.PairedOn {α : Type} (told : Prop) (w : Pairing) : Reply α → Reply α → Prop where
  | ok {env env' : Env} (h : env.PairedOn told w env') (stop : Nat) (a : α) :
      PairedOn told w (.ok env stop a) (.ok env' stop a)
  | fail (message : String) (about : Option Nat) :
      PairedOn told w (.fail message about) (.fail message about)

/-- Scans, environments and replies that are paired, whatever the scans report. -/
abbrev Scan.Paired (w : Pairing) (s s' : Scan) : Prop := PairedOn False w s s'

@[inherit_doc Scan.Paired]
abbrev Env.Paired (w : Pairing) (env env' : Env) : Prop := PairedOn False w env env'

@[inherit_doc Scan.Paired]
abbrev Reply.Paired {α : Type} (w : Pairing) (reply reply' : Reply α) : Prop :=
  PairedOn False w reply reply'

theorem Scan.PairedOn.mono {told : Prop} {w w' : Pairing} {s s' : Scan}
    (h : Scan.PairedOn told w s s') (hw : w ≤ w') : Scan.PairedOn told w' s s' :=
  fun _ hw' => h (le_trans hw hw')

namespace Env.PairedOn

variable {told : Prop} {w w' : Pairing} {env env' : Env}

theorem mono (h : env.PairedOn told w env') (hw : w ≤ w') : env.PairedOn told w' env' := by
  have hscan : ∀ {s s'}, Option.Rel (Scan.PairedOn told w) s s' →
      Option.Rel (Scan.PairedOn told w') s s' := by
    intro s s' hs
    cases hs with
    | some hs => exact .some (hs.mono hw)
    | none => exact .none
  exact ⟨h.subject, hscan h.skip, hscan h.follow⟩

/-- A bare environment is paired with itself. -/
theorem new (w : Pairing) (subject : Text) : (Env.new subject).PairedOn told w (Env.new subject) :=
  ⟨rfl, .none, .none⟩

theorem from? (h : env.PairedOn told w env') (n : Nat) : env.from? n = env'.from? n := by
  rw [Env.from?, Env.from?, h.subject]

theorem length (h : env.PairedOn told w env') : env.length = env'.length := by
  rw [Env.length, Env.length, h.subject]

theorem withSubject (h : env.PairedOn told w env') (subject : Text) :
    (env.withSubject subject).PairedOn told w (env'.withSubject subject) :=
  ⟨rfl, h.skip, h.follow⟩

theorem withoutSkip (h : env.PairedOn told w env') :
    env.withoutSkip.PairedOn told w env'.withoutSkip :=
  ⟨h.subject, .none, h.follow⟩

/-- The same is skipped. -/
theorem skipFrom (h : env.PairedOn told w env') (n : Nat) :
    Eval.PairedOn told w (env.skipFrom n) (env'.skipFrom n) fun _ => Eq := by
  have hskip := h.skip
  unfold Env.skipFrom
  generalize env.skip = skip at hskip ⊢
  generalize env'.skip = skip' at hskip ⊢
  cases hskip with
  | none => exact .pure rfl
  | some hs =>
    simp only [h.subject]
    refine .bind (hs le_rfl env'.subject n) fun w' _ stop _ heq => ?_
    subst heq
    cases stop <;> exact .pure rfl

/-- Steps that put paired scans into paired environments make paired environments. -/
theorem make {J : Type} {scans scans' : J → Scan}
    (hscans : ∀ j, (scans j).PairedOn told w (scans' j)) (steps : List (Env.Step J))
    (h : env.PairedOn told w env') :
    (env.make scans steps).PairedOn told w (env'.make scans' steps) := by
  have hgiven : ∀ given : Option J,
      Option.Rel (Scan.PairedOn told w) (given.map scans) (given.map scans') := by
    intro given
    cases given with
    | none => exact .none
    | some j => exact .some (hscans j)
  have hstep : ∀ (step : Env.Step J) {env env' : Env}, env.PairedOn told w env' →
      (step.apply scans env).PairedOn told w (step.apply scans' env') := by
    intro step env env' h
    cases step with
    | withSubject subject => exact h.withSubject subject
    | adjust step =>
      cases step with
      | withSkip skip => exact ⟨h.subject, hgiven skip, h.follow⟩
      | withFollow follow => exact ⟨h.subject, h.skip, hgiven follow⟩
      | withoutSkip => exact h.withoutSkip
      | bare => exact ⟨h.subject, .none, .none⟩
  induction steps generalizing env env' with
  | nil => exact h
  | cons step steps ih => exact ih (hstep step h)

end Env.PairedOn

/-- **What is done with replies that are paired** is compared for the two kinds of
replies. -/
theorem Eval.PairedOn.bindReply {α β γ : Type} {told : Prop} {w : Pairing} {x y : Eval (Reply α)}
    {f : Reply α → Eval β} {g : Reply α → Eval γ} {Q : Pairing → β → γ → Prop}
    (hx : PairedOn told w x y (Reply.PairedOn told))
    (hok : ∀ w', w ≤ w' → ∀ env env', env.PairedOn told w' env' → ∀ stop a,
      PairedOn told w' (f (.ok env stop a)) (g (.ok env' stop a)) Q)
    (hfail : ∀ w', w ≤ w' → ∀ message about,
      PairedOn told w' (f (.fail message about)) (g (.fail message about)) Q) :
    PairedOn told w (x >>= f) (y >>= g) Q := by
  refine .bind hx fun w' hw reply reply' h => ?_
  cases h with
  | ok henv stop a => exact hok w' hw _ _ henv stop a
  | fail message about => exact hfail w' hw message about

/-! ## Parsers -/

namespace Parser

variable {α β γ δ : Type} {told : Prop} {w w' : Pairing}

/-- **Parsers that are paired** reply alike, now and later, in environments that are
paired. -/
def PairedOn (told : Prop) (w : Pairing) (p q : Parser α) : Prop :=
  ∀ ⦃w'⦄, w ≤ w' → ∀ ⦃env env'⦄, env.PairedOn told w' env' → ∀ n,
    Eval.PairedOn told w' (p.run env n) (q.run env' n) (Reply.PairedOn told)

/-- Parsers that are paired, whatever they report. -/
abbrev Paired (w : Pairing) (p q : Parser α) : Prop := PairedOn False w p q

namespace PairedOn

theorem mono {p q : Parser α} (h : p.PairedOn told w q) (hw : w ≤ w') : p.PairedOn told w' q :=
  fun _ hw' => h (le_trans hw hw')

/-- What is left of paired parsers are paired scans. -/
theorem scan {p q : Parser α} (hp : p.PairedOn told w q) : p.scan.PairedOn told w q.scan :=
  fun _ hw subject n => .bindReply (hp hw (.new _ subject) n)
    (fun _ _ _ _ _ _ _ => .pure rfl) fun _ _ _ _ => .pure rfl

/-! ### Parsers that are not made of others -/

theorem succeed (a : α) : (Parser.succeed a).PairedOn told w (.succeed a) :=
  fun _ _ _ _ henv n => .pure (.ok henv n a)

theorem fail (message : String) :
    (Parser.fail message : Parser α).PairedOn told w (.fail message) :=
  fun _ _ _ _ _ _ => .pure (.fail message none)

theorem position : Parser.position.PairedOn told w .position :=
  fun _ _ _ _ henv n => .pure (.ok henv n n)

theorem moveTo (target : Nat) : (Parser.moveTo target).PairedOn told w (.moveTo target) := by
  intro w' _ env env' henv n
  simp only [Parser.moveTo, henv.from?]
  split
  · exact .pure (.ok henv target ())
  · exact .pure (.fail _ _)

theorem token (read : Reader) (message : String) :
    (Parser.token read message).PairedOn told w (.token read message) := by
  intro w' _ env env' henv n
  refine .bind (henv.skipFrom n) fun w'' hw start _ heq => ?_
  subst heq
  rw [henv.from?]
  cases (env'.from? start).bind read with
  | none => exact .pure (.fail _ _)
  | some m => exact .pure (.ok (henv.mono hw) _ _)

theorem endWith (message : String) :
    (Parser.endWith message).PairedOn told w (.endWith message) := by
  intro w' _ env env' henv n
  refine .bind (henv.skipFrom n) fun w'' hw start _ heq => ?_
  subst heq
  simp only [henv.length]
  split
  · exact .pure (.ok (henv.mono hw) _ _)
  · exact .pure (.fail _ _)

/-- The same keywords may end. -/
theorem mayEndAt {env env' : Env} (henv : env.PairedOn told w env') (n : Nat) :
    Eval.PairedOn told w (Parser.mayEndAt env n) (Parser.mayEndAt env' n) fun _ => Eq := by
  have hfollow := henv.follow
  unfold Parser.mayEndAt
  generalize env.follow = follow at hfollow ⊢
  generalize env'.follow = follow' at hfollow ⊢
  cases hfollow with
  | none => exact .pure rfl
  | some hs =>
    simp only [henv.length, henv.subject]
    split
    · exact .pure rfl
    · refine .bind (henv.skipFrom n) fun w' hw start _ heq => ?_
      subst heq
      by_cases hmoved : n < start
      · simp only [if_pos hmoved]
        exact .pure rfl
      · simp only [if_neg hmoved]
        exact .bind (hs hw env'.subject n) fun _ _ stop _ heq => heq ▸ .pure rfl

theorem bounded {p q : Parser String} (hp : p.PairedOn told w q) (message : String) :
    (p.bounded message).PairedOn told w (q.bounded message) := by
  intro w' hw env env' henv n
  refine .bindReply (hp hw henv n) (fun w' _ env env' henv stop text => ?_)
    fun _ _ _ _ => .pure (.fail _ _)
  refine .bind (mayEndAt henv stop) fun w'' hw may _ heq => ?_
  subst heq
  cases may with
  | true => exact .pure (.ok (henv.mono hw) stop text)
  | false => exact .emit_bind _ fun _ _ => .pure (.fail _ _)

/-! ### Sequences -/

theorem bind {p q : Parser α} {f g : α → Parser β} (hp : p.PairedOn told w q)
    (hf : ∀ a, (f a).PairedOn told w (g a)) : (p.bind f).PairedOn told w (q.bind g) :=
  fun _ hw _ _ henv n => .bindReply (hp hw henv n)
    (fun _ hw' _ _ henv stop a => hf a (le_trans hw hw') henv stop)
    fun _ _ _ _ => .pure (.fail _ _)

theorem map {p q : Parser α} (f : α → β) (hp : p.PairedOn told w q) :
    (p.map f).PairedOn told w (q.map f) := by
  simp only [map_eq_bind]
  exact hp.bind fun a => succeed (f a)

theorem bindMap {p q : Parser α} {k l : α → Parser β} (f : α → β → γ) (hp : p.PairedOn told w q)
    (hk : ∀ a, (k a).PairedOn told w (l a)) : (p.bindMap k f).PairedOn told w (q.bindMap l f) := by
  simp only [bindMap_eq_bind]
  exact hp.bind fun a => (hk a).map (f a)

theorem seqRight {p q : Parser α} {p' q' : Parser β} (hp : p.PairedOn told w q)
    (hp' : p'.PairedOn told w q') : (p.seqRight p').PairedOn told w (q.seqRight q') :=
  hp.bind fun _ => hp'

theorem seqLeft {p q : Parser α} {p' q' : Parser β} (hp : p.PairedOn told w q)
    (hp' : p'.PairedOn told w q') : (p.seqLeft p').PairedOn told w (q.seqLeft q') := by
  simp only [seqLeft_eq_bind]
  exact hp.bind fun a => hp'.map fun _ => a

/-! ### Parsers that go back -/

theorem firstOf {ps qs : List (Parser α)} (h : List.Forall₂ (PairedOn told w) ps qs) {w' : Pairing}
    (hw : w ≤ w') {env env' : Env} (henv : env.PairedOn told w' env') (n index : Nat)
    {failure failure' : Reply α}
    (hfailure : ∀ w'', w' ≤ w'' → failure.PairedOn told w'' failure') :
    Eval.PairedOn told w' (Parser.firstOf index failure ps env n)
      (Parser.firstOf index failure' qs env' n) (Reply.PairedOn told) := by
  induction h generalizing index failure failure' w' with
  | nil => exact .pure (hfailure w' le_rfl)
  | cons hp _ ih =>
    refine .bindReply (hp hw henv n) (fun _ _ _ _ henv stop a => .pure (.ok henv stop a)) ?_
    intro w'' hw' message about
    refine .emit_bind _ fun w₃ hw'' => ?_
    have hall := le_trans hw' hw''
    exact ih (le_trans hw hall) (henv.mono hall) (index + 1) fun _ _ => .fail message about

theorem choice {ps qs : List (Parser α)} (h : List.Forall₂ (PairedOn told w) ps qs) :
    (Parser.choice ps).PairedOn told w (.choice qs) :=
  fun _ hw _ _ henv n => firstOf h hw henv n 0 fun _ _ => .fail _ _

theorem orElse {p q p' q' : Parser α} (hp : p.PairedOn told w q) (hp' : p'.PairedOn told w q') :
    (p.orElse p').PairedOn told w (q.orElse q') := by
  intro w₁ hw env env' henv n
  refine .bindReply (hp hw henv n) (fun _ _ _ _ henv stop a => .pure (.ok henv stop a)) ?_
  intro w₂ hw' message about
  refine .emit_bind _ fun w₃ hw'' => ?_
  have hall := le_trans hw' hw''
  exact hp' (le_trans hw hall) (henv.mono hall) n

theorem withDefault {p q : Parser α} (hp : p.PairedOn told w q) (default : α) :
    (p.withDefault default).PairedOn told w (q.withDefault default) :=
  fun _ hw _ _ henv n => .bindReply (hp hw henv n)
    (fun _ _ _ _ henv stop a => .pure (.ok henv stop a))
    fun _ hw' _ _ => .pure (.ok (henv.mono hw') n default)

theorem optional {p q : Parser α} (hp : p.PairedOn told w q) :
    p.optional.PairedOn told w q.optional :=
  (hp.map some).withDefault none

theorem lookahead {p q : Parser α} (hp : p.PairedOn told w q) :
    p.lookahead.PairedOn told w q.lookahead :=
  fun _ hw _ _ henv n => .bindReply (hp hw henv n)
    (fun _ _ _ _ henv _ a => .pure (.ok henv n a)) fun _ _ _ _ => .pure (.fail _ _)

theorem notAhead {p q : Parser α} (hp : p.PairedOn told w q) :
    p.notAhead.PairedOn told w q.notAhead :=
  fun _ hw _ _ henv n => .bindReply (hp hw henv n) (fun _ _ _ _ _ _ _ => .pure (.fail _ _))
    fun _ hw' _ _ => .pure (.ok (henv.mono hw') n ())

theorem filter {p q : Parser α} (hp : p.PairedOn told w q) (accept : α → Bool) :
    (p.filter accept).PairedOn told w (q.filter accept) := by
  intro w' hw env env' henv n
  refine .bindReply (hp hw henv n) (fun w'' _ env env' henv stop a => ?_)
    fun _ _ _ _ => .pure (.fail _ _)
  show Eval.PairedOn told w'' (if _ then _ else _) (if _ then _ else _) _
  split
  · exact .pure (.ok henv stop a)
  · exact .pure (.fail _ _)

theorem mapFailure {p q : Parser α} (hp : p.PairedOn told w q)
    (f : String → Option Nat → String × Option Nat) :
    (p.mapFailure f).PairedOn told w (q.mapFailure f) := by
  intro w' hw env env' henv n
  refine .bindReply (hp hw henv n) (fun _ _ _ _ henv stop a => .pure (.ok henv stop a)) ?_
  intro w'' _ message about
  simp only []
  split
  · exact .stop _
  · exact .pure (.fail _ _)

theorem mapMessage {p q : Parser α} (hp : p.PairedOn told w q) (f : String → String) :
    (p.mapMessage f).PairedOn told w (q.mapMessage f) :=
  hp.mapFailure _

theorem mapMessageAt {p q : Parser α} (hp : p.PairedOn told w q) (f : String → String)
    (g : Option Nat → Nat) : (p.mapMessageAt f g).PairedOn told w (q.mapMessageAt f g) :=
  hp.mapFailure _

/-! ### Repetition -/

/-- Rounds that are paired differ in their environments at most. -/
inductive RoundPaired (told : Prop) (w : Pairing) : Round δ α → Round δ α → Prop where
  | mk {env env' : Env} (h : env.PairedOn told w env') (stop : Nat) (d : δ) (a : α) :
      RoundPaired told w ⟨env, stop, d, a⟩ ⟨env', stop, d, a⟩

/-- Chains of rounds that are paired, from an environment and a position on. -/
structure ChainPaired (told : Prop) (w : Pairing) (env env' : Env)
    (chain chain' : List (Round δ α)) : Prop where
  reply : ∀ stop a,
    (Round.reply env stop chain a).PairedOn told w (Round.reply env' stop chain' a)
  foldLeft : ∀ (f : α → δ → α → α) first,
    Round.foldLeft f first chain = Round.foldLeft f first chain'
  foldRight : ∀ (f : α → δ → α → α) first,
    Round.foldRight f first chain = Round.foldRight f first chain'

/-- No rounds. -/
theorem ChainPaired.nil {env env' : Env} (h : env.PairedOn told w env') :
    ChainPaired (δ := δ) (α := α) told w env env' [] [] :=
  ⟨fun stop a => .ok h stop a, fun _ _ => rfl, fun _ _ => rfl⟩

/-- One round more. -/
theorem ChainPaired.cons {env env' : Env} {stop : Nat} {d : δ} {a : α}
    {chain chain' : List (Round δ α)} (h : ChainPaired told w env env' chain chain')
    (env₀ env₀' : Env) :
    ChainPaired told w env₀ env₀' (⟨env, stop, d, a⟩ :: chain) (⟨env', stop, d, a⟩ :: chain') :=
  ⟨fun _ b => h.reply stop b, fun f first => h.foldLeft f (f first d a),
    fun f first => congrArg (f first d) (h.foldRight f a)⟩

theorem round {item item' : Parser α} {delimiter delimiter' : Parser δ}
    (hitem : item.PairedOn told w item') (hdelimiter : delimiter.PairedOn told w delimiter')
    {w' : Pairing} (hw : w ≤ w') {env env' : Env} (henv : env.PairedOn told w' env') (n : Nat) :
    Eval.PairedOn told w' (Parser.round item delimiter env n) (Parser.round item' delimiter' env' n)
      fun w => Option.Rel (RoundPaired told w) := by
  have hend : ∀ w' reason, Eval.PairedOn told w'
      (Eval.emit reason >>= fun _ => Pure.pure (none : Option (Round δ α)))
      (Eval.emit reason >>= fun _ => Pure.pure (none : Option (Round δ α)))
      fun w => Option.Rel (RoundPaired told w) :=
    fun _ _ => .emit_bind _ fun _ _ => .pure .none
  refine .bindReply (hdelimiter hw henv n) (fun w₁ hw₁ env env' henv middle d => ?_)
    fun w' _ _ _ => hend w' _
  refine .bindReply (hitem (le_trans hw hw₁) henv middle) (fun w₂ _ env env' henv stop a => ?_)
    fun w' _ _ _ => hend w' _
  simp only []
  split
  · exact .pure (.some (.mk henv stop d a))
  · exact hend w₂ _

/-- The induction is on the rounds that are allowed. -/
theorem rounds {item item' : Parser α} {delimiter delimiter' : Parser δ}
    (hitem : item.PairedOn told w item') (hdelimiter : delimiter.PairedOn told w delimiter')
    (left : Nat) {w' : Pairing} (hw : w ≤ w') {env env' : Env} (henv : env.PairedOn told w' env')
    (n : Nat) :
    Eval.PairedOn told w' (Parser.rounds item delimiter left env n)
      (Parser.rounds item' delimiter' left env' n) fun w => ChainPaired told w env env' := by
  induction left generalizing w' env env' n with
  | zero =>
    unfold Parser.rounds
    refine .bind (round hitem hdelimiter hw henv n) fun w₁ hw₁ r r' hr => ?_
    cases hr <;> exact .pure (.nil (henv.mono hw₁))
  | succ left ih =>
    unfold Parser.rounds
    refine .bind (round hitem hdelimiter hw henv n) fun w₁ hw₁ r r' hr => ?_
    cases hr with
    | none => exact .pure (.nil (henv.mono hw₁))
    | some hr =>
      obtain ⟨henv₁, stop, d, a⟩ := hr
      exact .bind (ih (le_trans hw hw₁) henv₁ stop) fun w₂ _ chain chain' hchain =>
        .pure (hchain.cons env env')

/-- Repetitions whose value is made of the items and delimiters of a chain. -/
theorem repetition {item item' : Parser α} {delimiter delimiter' : Parser δ}
    (hitem : item.PairedOn told w item') (hdelimiter : delimiter.PairedOn told w delimiter')
    (value : α → List (Round δ α) → α)
    (hvalue : ∀ {w env env' chain chain'}, ChainPaired told w env env' chain chain' → ∀ first,
      value first chain = value first chain') :
    (Parser.repetition item delimiter value).PairedOn told w
      (.repetition item' delimiter' value) := by
  intro w' hw env env' henv n
  refine .bindReply (hitem hw henv n) (fun w₁ hw₁ env env' henv stop first => ?_)
    fun _ _ _ _ => .pure (.fail _ _)
  refine .bind (rounds hitem hdelimiter _ (le_trans hw hw₁) henv stop)
    fun w₂ _ chain chain' hchain => ?_
  rw [hvalue hchain first]
  exact .pure (hchain.reply stop _)

theorem foldSep {item item' : Parser α} {delimiter delimiter' : Parser δ}
    (hitem : item.PairedOn told w item') (hdelimiter : delimiter.PairedOn told w delimiter')
    (f : α → δ → α → α) :
    (item.foldSep delimiter f).PairedOn told w (item'.foldSep delimiter' f) := by
  rw [foldSep_eq_repetition, foldSep_eq_repetition]
  exact hitem.repetition hdelimiter _ fun h first => h.foldLeft f first

theorem foldSepRight {item item' : Parser α} {delimiter delimiter' : Parser δ}
    (hitem : item.PairedOn told w item') (hdelimiter : delimiter.PairedOn told w delimiter')
    (f : α → δ → α → α) :
    (item.foldSepRight delimiter f).PairedOn told w (item'.foldSepRight delimiter' f) := by
  rw [foldSepRight_eq_repetition, foldSepRight_eq_repetition]
  exact hitem.repetition hdelimiter _ fun h first => h.foldRight f first

theorem foldMany1 {item item' : Parser α} (hitem : item.PairedOn told w item') (f : α → α → α) :
    (item.foldMany1 f).PairedOn told w (item'.foldMany1 f) :=
  hitem.foldSep (token _ _) _

theorem foldMany {item item' : Parser α} (hitem : item.PairedOn told w item') (f : α → α → α)
    (default : α) : (item.foldMany f default).PairedOn told w (item'.foldMany f default) :=
  (hitem.foldMany1 f).withDefault default

/-! ### Other environments and other texts -/

/-- What follows goes on in the environments of the calls. -/
theorem inEnvM {p q : Parser α} {change change' : Env → Eval Env} (hp : p.PairedOn told w q)
    (hchange : ∀ w', w ≤ w' → ∀ env env', env.PairedOn told w' env' →
      Eval.PairedOn told w' (change env) (change' env') (Env.PairedOn told)) :
    (p.inEnvM change).PairedOn told w (q.inEnvM change') := by
  intro w' hw env env' henv n
  refine .bind (hchange w' hw env env' henv) fun w₁ hw₁ env₁ env₁' henv₁ => ?_
  refine .bindReply (hp (le_trans hw hw₁) henv₁ n) (fun w₂ hw₂ _ _ _ stop a => ?_)
    fun _ _ _ _ => .pure (.fail _ _)
  exact .pure (.ok (henv.mono (le_trans hw₁ hw₂)) stop a)

theorem inEnv {p q : Parser α} {change change' : Env → Env} (hp : p.PairedOn told w q)
    (hchange : ∀ w', w ≤ w' → ∀ env env', env.PairedOn told w' env' →
      (change env).PairedOn told w' (change' env')) :
    (p.inEnv change).PairedOn told w (q.inEnv change') := by
  simp only [Construction.inEnv_eq_inEnvM]
  exact hp.inEnvM fun w' hw env env' henv => .pure (hchange w' hw env env' henv)

theorem onText {p q : Parser α} (hp : p.PairedOn told w q) (subject : Text) :
    (p.onText subject).PairedOn told w (q.onText subject) :=
  fun _ hw _ _ henv n => .bindReply (hp hw (henv.withSubject subject) 0)
    (fun _ hw' _ _ _ _ a => .pure (.ok (henv.mono hw') n a)) fun _ _ _ _ => .pure (.fail _ _)

/-! ### Grammars that are built during the run, and recursive grammars -/

/-- **Parts that are built on the spot** are paired if they are whenever their scopes are. -/
theorem fresh {build build' : Nat → Parser α}
    (h : ∀ w', w ≤ w' → ∀ s t, w'.rel s t → (build s).PairedOn told w' (build' t)) :
    (Parser.fresh fun s => .ok (build s)).PairedOn told w (.fresh fun s => .ok (build' s)) := by
  intro w' hw env env' henv n
  rw [fresh_run, fresh_run]
  exact .inScope fun w₁ hw₁ s t hst => h w₁ (le_trans hw hw₁) s t hst le_rfl (henv.mono hw₁) n

/-- What cannot be built stops both. -/
theorem unbuilt (cause : Fault) :
    (Parser.fresh fun _ => .error cause : Parser α).PairedOn told w
      (.fresh fun _ => .error cause) :=
  fun _ _ _ _ _ _ _ _ _ _ => .fault fun _ => rfl

section

variable {ι : Type} {τ : ι → Type} {grammar grammar' : Knot τ}

/-- Of two grammars whose scopes are paired, both are alive or neither. -/
theorem ensureLive (hname : w.rel grammar.name.scope grammar'.name.scope) :
    Eval.PairedOn told w grammar.ensureLive grammar'.ensureLive fun _ _ _ => True := by
  intro n k l hkl
  have hlive := hkl.live hname
  by_cases halive : grammar.name.scope ∈ k.live
  · rw [Knot.ensureLive_eq_done_iff.mpr ⟨halive, rfl, rfl⟩,
      Knot.ensureLive_eq_done_iff.mpr ⟨hlive.mp halive, rfl, rfl⟩]
    exact .done le_rfl (.refl k) (.refl l) hkl trivial fun _ => rfl
  · have hstop : ∀ {grammar : Knot τ} {k : Knots}, grammar.name.scope ∉ k.live →
        grammar.ensureLive n k = .fault .releasedGrammar [] k := by
      intro grammar k h
      simp [Knot.ensureLive, Eval.bind_apply, Eval.knots, Outcome.after, h, Eval.stop]
    rw [hstop halive, hstop (mt hlive.mpr halive)]
    exact .fault fun _ => rfl

/-- That grammars are tied changes no scope, and nothing is remarked. -/
theorem tie {handles handles' : Parsers τ} (h : ∀ i, ∃ p, grammar.rule i handles = .ok p)
    (h' : ∀ i, ∃ p, grammar'.rule i handles' = .ok p) :
    Eval.PairedOn told w (grammar.tie handles) (grammar'.tie handles') fun _ _ _ => True := by
  intro n k l hkl
  obtain ⟨log, tied, hlog, hk⟩ := Knot.tie_done h n k
  obtain ⟨log', tied', hlog', hl⟩ := Knot.tie_done h' n l
  rw [hk, hl]
  exact .done le_rfl ⟨Nat.le_refl _, fun _ => Iff.rfl⟩ ⟨Nat.le_refl _, fun _ => Iff.rfl⟩
    ⟨hkl.opened, hkl.live, hkl.lasting⟩ trivial fun _ => hlog.trans hlog'.symm

/-- **Recursive grammars whose scopes are paired** are paired if their rules are, given
handles that are. The induction is on the calls that are left. -/
theorem entry (hname : w.rel grammar.name.scope grammar'.name.scope)
    (hbuilt : ∀ i handles, ∃ p, grammar.rule i handles = .ok p)
    (hbuilt' : ∀ i handles, ∃ p, grammar'.rule i handles = .ok p)
    (hrules : ∀ handles handles' : Parsers τ, (∀ j, (handles j).PairedOn told w (handles' j)) →
      ∀ i p q, grammar.rule i handles = .ok p → grammar'.rule i handles' = .ok q →
        p.PairedOn told w q)
    (i : ι) : (grammar.entry i).PairedOn told w (grammar'.entry i) := by
  have hcall : ∀ budget i,
      (⟨grammar.call budget i⟩ : Parser (τ i)).PairedOn told w ⟨grammar'.call budget i⟩ := by
    intro budget
    induction budget with
    | zero => exact fun _ _ _ _ _ _ _ => .giveUp
    | succ budget ih =>
      have hhandles : ∀ j,
          (grammar.handlesAt budget j).PairedOn told w (grammar'.handlesAt budget j) :=
        fun j _ hw _ _ henv n => .bind (ensureLive (hw.1 hname)) fun w' hw' _ _ _ =>
          ih j (le_trans hw hw') (henv.mono hw') n
      intro i w' hw env env' henv n
      obtain ⟨p, hp⟩ := hbuilt i (grammar.handlesAt budget)
      obtain ⟨q, hq⟩ := hbuilt' i (grammar'.handlesAt budget)
      refine .bind (tie (fun j => hbuilt j (grammar.handlesAt budget))
        fun j => hbuilt' j (grammar'.handlesAt budget)) fun w₁ hw₁ _ _ _ => ?_
      have hbuild : ∀ {r : Except Fault (Parser (τ i))} {p : Parser (τ i)} (env : Env), r = .ok p →
          (Eval.ofExcept r >>= fun p => Eval.withBudget budget (p.run env n))
            = Eval.withBudget budget (p.run env n) :=
        fun env hr => hr ▸ Eval.pure_bind _ _
      show Eval.PairedOn told w₁ (Eval.ofExcept (grammar.rule i (grammar.handlesAt budget)) >>= _)
        (Eval.ofExcept (grammar'.rule i (grammar'.handlesAt budget)) >>= _) _
      rw [hbuild env hp, hbuild env' hq]
      exact .withBudget (hrules _ _ hhandles i p q hp hq (le_trans hw hw₁) (henv.mono hw₁) n)
  intro w' hw env env' henv n
  refine .bind .budget fun w₁ hw₁ budget _ heq => ?_
  subst heq
  exact hcall budget i (le_trans hw hw₁) (henv.mono hw₁) n

end

end PairedOn

end Parser

end Descent
