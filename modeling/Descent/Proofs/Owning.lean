import Descent.Parser.Ownership
import Descent.Proofs.Materializing
import Descent.Proofs.Rerunning

/-!
# How long a handle lives

A forward handle that its builder gave away is of use exactly as long as the grammar: from
the first run, which builds the rule, until the parser that owns the grammar is dropped
(`Ownership.handle_lives`). This is told of whole histories, in which the parser is run or
dropped and the handle is run, in any order and as often as one likes, and in which steps
may fail or be stopped by a fault.

**Three phases.** What a history has come to is told by two things: whether the handle was
given away, and whether the scope of the grammar is alive. Before the drop the scope is
alive (`State.Owned`), and there a handle is the parser itself. A run may leave another
state, since it ties grammars and opens scopes, but it keeps what was alive, however it
ends, and what a later run replies does not depend on the rest (`Parser.Durable`). With the
drop the scope is gone, for good. A handle that was given away is stopped then, before the
rule has a part in it.

**What gives the handle away** is the first run that returns. The rule is built before
anything else is done, so the run has reported that, even if the builder itself stops it. A
run that does not return is not followed by anything.
-/

namespace Descent

/-- What returns leaves a log and a state. -/
theorem Outcome.exists_leaves {α : Type} {o : Outcome α} (h : o.result ≠ none) :
    ∃ log k, o.Leaves log k := by
  cases o with
  | done a log k => exact ⟨log, k, .done a log k⟩
  | fault cause log k => exact ⟨log, k, .fault cause log k⟩
  | exhausted => exact absurd rfl h

/-! ## States in which a grammar is alive -/

/-- **The first scope is alive**, in a tidy state. -/
def Knots.Owned (k : Knots) : Prop := k.Tidy ∧ 0 ∈ k.live

namespace Knots.Owned

theorem initial : Knots.initial.Owned := by
  refine ⟨⟨fun scope h => ?_, fun name h => absurd h List.not_mem_nil⟩, List.mem_singleton_self 0⟩
  rw [List.mem_singleton.mp h]
  exact Nat.zero_lt_one

/-- Such a state leaves alone what there was in the beginning. -/
theorem keeps {k : Knots} (h : k.Owned) : Knots.initial.Keeps k := by
  refine ⟨h.1.1 0 h.2, fun {s} hs => ?_⟩
  obtain rfl : s = 0 := Nat.lt_one_iff.mp hs
  exact iff_of_true h.2 (List.mem_singleton_self 0)

end Knots.Owned

namespace Parser

variable {α : Type}

/-- **The parser may be run as often as one likes**, in states where the first scope is
alive: it always comes to what it comes to in the beginning, and however it ends, the scope
stays alive. -/
structure Durable (p : Parser α) : Prop where
  result_eq : ∀ {k : Knots}, k.Owned → ∀ subject budget,
    (p.run (.new subject) 0 budget k).result = (p.run (.new subject) 0 budget .initial).result
  owned : ∀ {k : Knots}, k.Owned → ∀ {subject budget log k'},
    (p.run (.new subject) 0 budget k).Leaves log k' → k'.Owned

end Parser

/-- **A grammar that is built in a lawful way may be run as often as one likes.** -/
theorem Construction.durable {α : Type} {c : Construction.Closed α} {sizes : KnotName → Option Nat}
    (halike : c.Alike (.below 1) c) (hlawful : c.Lawful (.orderly sizes) [0]) :
    c.toParser.Durable := by
  have horderly {k : Knots} (hk : k.Owned) (subject : Text) (budget : Nat) :
      (c.toParser.run (.new subject) 0).OrderlyFrom sizes budget k
        fun _ reply => reply.GoesOnIn (.new subject) :=
    c.lawful hlawful (fun v => v.elim) (List.Subset.refl _) (Env.Lawful.new _ subject) 0 budget k
      hk.1 (by simpa using hk.2)
  refine ⟨fun {k} hk subject budget => ?_, fun {k} hk {subject budget log k'} h => ?_⟩
  · have hends := halike.toParser le_rfl (.new _ subject) 0 budget _ _ hk.keeps.paired
    exact hends.result_eq (fun h => (horderly hk subject budget).value _ _ _ h)
      fun h => (horderly .initial subject budget).value _ _ _ h
  · have hleads := (horderly hk subject budget).leads log k' h
    exact ⟨hleads.tidy, hleads.live hk.2⟩

/-! ## A grammar that gives its handle away -/

namespace Ownership

variable {α : Type}

/-- A grammar of one rule in the first scope, by a builder that makes the rule of its handle or
fails. -/
def grammar (path : List Nat)
    (build : Except Fault (Construction (Sum.elim Empty.elim fun _ : Unit => α) α)) :
    Knot fun _ : Unit => α :=
  Parser.knot1 ⟨0, path⟩ fun h => build.map fun c => c.parser (Parsers.none.extend fun _ => h)

/-- The whole grammar, if the builder does not fail. -/
def closed (path : List Nat) (c : Construction (Sum.elim Empty.elim fun _ : Unit => α) α) :
    Construction.Closed α :=
  .recursive ⟨0, path⟩ [()] (fun _ => c) ()

/-- **The builder is lawful**: what it makes is built from the forms of the library, where
recursive grammars are declared and whatever is written by hand minds the scopes. -/
def Lawful (sizes : KnotName → Option Nat) (path : List Nat)
    (build : Except Fault (Construction (Sum.elim Empty.elim fun _ : Unit => α) α)) : Prop :=
  ∀ c, build = .ok c →
    (closed path c).Alike (.below 1) (closed path c) ∧ (closed path c).Lawful (.orderly sizes) [0]

variable {path : List Nat} {sizes : KnotName → Option Nat} {cause : Fault}
  {build : Except Fault (Construction (Sum.elim Empty.elim fun _ : Unit => α) α)}

/-- The owner of the grammar has the parser that was built for it. -/
theorem entry_of_ok (path : List Nat) (c : Construction (Sum.elim Empty.elim fun _ : Unit => α) α) :
    (grammar path (.ok c)).entry () = (closed path c).toParser := rfl

/-- A builder that fails stops every run, and nothing is tied. -/
theorem exists_fault_of_error (path : List Nat) (cause : Fault) (env : Env) (n budget : Nat)
    (k : Knots) : ∃ log, ((grammar (α := α) path (.error cause)).entry ()).run env n (budget + 1) k
      = .fault cause log k := by
  rw [Knot.entry_run_apply]
  by_cases htied : (⟨0, path⟩ : KnotName) ∈ k.tied
  · refine ⟨[], ?_⟩
    simp [Knot.call, Knot.tie, grammar, Parser.knot1, Eval.bind_apply, Eval.knots, Outcome.after,
      htied, Except.map, Eval.ofExcept, Eval.stop]
  · refine ⟨[.materializing ⟨0, path⟩, .ruleBuilt ⟨0, path⟩ 0], ?_⟩
    simp [Knot.call, Knot.tie, Knot.buildRules, grammar, Parser.knot1, Eval.bind_apply, Eval.knots,
      Eval.emit, Outcome.after, htied, Except.map, Eval.ofExcept, Eval.stop]

/-- **The owner may run the grammar as often as he likes**, whether or not the builder fails. -/
theorem durable (hbuild : Lawful sizes path build) : ((grammar path build).entry ()).Durable := by
  cases hc : build with
  | ok c =>
    obtain ⟨halike, hlawful⟩ := hbuild c hc
    exact entry_of_ok path c ▸ Construction.durable halike hlawful
  | error cause =>
    refine ⟨fun {k} _ subject budget => ?_, fun {k} hk {subject budget log k'} h => ?_⟩
    · cases budget with
      | zero => rw [Knot.entry_run_apply, Knot.entry_run_apply]; rfl
      | succ budget =>
        obtain ⟨log, hrun⟩ := exists_fault_of_error (α := α) path cause (.new subject) 0 budget k
        obtain ⟨log', hfirst⟩ :=
          exists_fault_of_error (α := α) path cause (.new subject) 0 budget .initial
        rw [hrun, hfirst]
        rfl
    · cases budget with
      | zero =>
        rw [Knot.entry_run_apply] at h
        exact nomatch h
      | succ budget =>
        obtain ⟨log', hrun⟩ := exists_fault_of_error (α := α) path cause (.new subject) 0 budget k
        rw [hrun] at h
        cases h
        exact hk

end Ownership

/-! ## What gives the handle away -/

namespace Eval

variable {α β : Type} {x : Eval α} {f : α → Eval β} {n : Nat} {k k' : Knots} {log : List Event}
  {e : Event}

/-- After an event, what is left has it in front. -/
theorem leaves_emit_bind (h : ((Eval.emit e >>= fun _ => x) n k).Leaves log k') :
    ∃ log', log = e :: log' ∧ (x n k).Leaves log' k' :=
  Outcome.leaves_after_iff.mp h

/-- **What the first part always reports**, the sequence does, even if it is stopped there. -/
theorem mem_of_leaves_bind (hx : ∀ {log k'}, (x n k).Leaves log k' → e ∈ log)
    (h : ((x >>= f) n k).Leaves log k') : e ∈ log := by
  obtain ⟨cause, hfault⟩ | ⟨a, log₁, k₁, log₂, hdone, -, rfl⟩ := leaves_bind h
  · exact hx (.of_fault hfault)
  · exact List.mem_append_left _ (hx (.of_done hdone))

end Eval

namespace Knot

variable {ι : Type} {τ : ι → Type} {knot : Knot τ} {i : ι} {is : List ι} {n : Nat} {k k' : Knots}
  {log : List Event}

/-- **Tying begins with the first rule**, whether or not it can be built. -/
theorem ruleBuilt_mem_of_tie {handles : Parsers τ} (horder : knot.order = i :: is)
    (huntied : knot.name ∉ k.tied) (h : (knot.tie handles n k).Leaves log k') :
    .ruleBuilt knot.name 0 ∈ log := by
  have htie : knot.tie handles n k = (Eval.emit (.materializing knot.name) >>= fun _ =>
      knot.buildRules handles 0 knot.order >>= fun _ => Eval.modifyKnots fun k =>
        ⟨k.nextScope, k.live, knot.name :: k.tied⟩) n k := by
    refine (Outcome.after_nil _).trans ?_
    exact congrFun (congrFun (if_neg huntied) n) k
  rw [htie, horder] at h
  obtain ⟨rest, rfl, hrest⟩ := Eval.leaves_emit_bind h
  refine List.mem_cons_of_mem _ (Eval.mem_of_leaves_bind (fun hrules => ?_) hrest)
  obtain ⟨rest', rfl, -⟩ := Eval.leaves_emit_bind hrules
  exact List.mem_cons_self

/-- **A call that returns has built the first rule**, unless the grammar was tied before: that
is the first thing that is done. -/
theorem ruleBuilt_mem_of_call {budget : Nat} {j : ι} {env : Env} {m : Nat}
    (horder : knot.order = i :: is) (huntied : knot.name ∉ k.tied)
    (h : (knot.call budget j env m n k).Leaves log k') : .ruleBuilt knot.name 0 ∈ log := by
  cases budget with
  | zero => exact nomatch h
  | succ budget => exact Eval.mem_of_leaves_bind (ruleBuilt_mem_of_tie horder huntied) h

/-- Where its grammar is alive, a handle is the nonterminal itself, -/
theorem handle_run_apply (hlive : knot.name.scope ∈ k.live) (env : Env) (m : Nat) :
    (knot.handle i).run env m n k = (knot.entry i).run env m n k := by
  show (knot.ensureLive >>= fun _ => (knot.entry i).run env m) n k = _
  rw [Eval.bind_apply, ensureLive_eq_done_iff.mpr ⟨hlive, rfl, rfl⟩]
  exact Outcome.after_nil _

/-- **and where it is gone, a handle is stopped.** -/
theorem handle_run_of_gone (hgone : knot.name.scope ∉ k.live) (env : Env) (m : Nat) :
    (knot.handle i).run env m n k = .fault .releasedGrammar [] k := by
  show (knot.ensureLive >>= fun _ => (knot.entry i).run env m) n k = _
  have hstop : knot.ensureLive n k = .fault .releasedGrammar [] k := by
    simp [ensureLive, Eval.bind_apply, Eval.knots, Outcome.after, hgone, Eval.stop]
  rw [Eval.bind_apply, hstop]

end Knot

/-! ## Histories -/

namespace Ownership

section

variable {α : Type} {knot : Knot fun _ : Unit => α} {budget : Nat}

/-- The state after some steps. -/
def stateAfter (knot : Knot fun _ : Unit => α) (budget : Nat) (state : State) (steps : List Step) :
    State :=
  steps.foldl (fun state s => (step knot budget state s).1) state

theorem history_cons (state : State) (s : Step) (steps : List Step) :
    history knot budget state (s :: steps) = (step knot budget state s).2
      :: history knot budget (step knot budget state s).1 steps := rfl

theorem stateAfter_append (state : State) (steps later : List Step) :
    stateAfter knot budget state (steps ++ later)
      = stateAfter knot budget (stateAfter knot budget state steps) later :=
  List.foldl_append

/-- Later steps answer from the state that the earlier ones left. -/
theorem history_append (state : State) (steps later : List Step) :
    history knot budget state (steps ++ later) = history knot budget state steps
      ++ history knot budget (stateAfter knot budget state steps) later := by
  induction steps generalizing state with
  | nil => rfl
  | cons s steps ih => exact congrArg ((step knot budget state s).2 :: ·) (ih _)

theorem length_history (state : State) (steps : List Step) :
    (history knot budget state steps).length = steps.length := by
  induction steps generalizing state with
  | nil => rfl
  | cons s steps ih => exact congrArg (· + 1) (ih _)

/-- **What a step answers after other steps**, whatever comes later. -/
def AnswersAfter (knot : Knot fun _ : Unit => α) (budget : Nat) (before : List Step) (s : Step)
    (answer : Answer α) : Prop :=
  ∀ after, (history knot budget .initial (before ++ s :: after))[before.length]? = some answer

/-- It answers from the state that they left. -/
theorem answersAfter_step (before : List Step) (s : Step) :
    AnswersAfter knot budget before s (step knot budget (stateAfter knot budget .initial before) s).2 := by
  intro after
  rw [history_append, List.getElem?_append_right (Nat.le_of_eq (length_history _ _)),
    length_history, Nat.sub_self]
  rfl

/-- Where the evaluation ends, what it reported decides about the handle. -/
theorem State.after_of_leaves {state : State} {β : Type} {o : Outcome β} {log : List Event}
    {k : Knots} (h : o.Leaves log k) : state.after o = ⟨state.given || log.any givesAway, k⟩ := by
  cases h <;> rfl

/-- A handle that was given away stays so, -/
theorem State.given_after {state : State} (h : state.given = true) {β : Type} (o : Outcome β) :
    (state.after o).given = true := by
  cases o <;> simp [after, h]

theorem given_step {state : State} (h : state.given = true) (s : Step) :
    (step knot budget state s).1.given = true := by
  cases s with
  | run subject =>
    rw [step]
    split
    · exact State.given_after h _
    · exact h
  | drop => exact h
  | handle subject =>
    rw [step, if_pos h]
    exact State.given_after h _

theorem given_stateAfter {state : State} (h : state.given = true) (steps : List Step) :
    (stateAfter knot budget state steps).given = true := by
  induction steps generalizing state with
  | nil => exact h
  | cons s steps ih => exact ih (given_step h s)

/-- One that was not cannot be run, -/
theorem step_handle_of_not_given {state : State} (h : state.given = false) (subject : Text) :
    step knot budget state (.handle subject) = (state, .noHandle) :=
  if_neg (by simp [h])

/-- and only a run gives it away. -/
theorem not_given_step {state : State} (h : state.given = false) {s : Step}
    (hs : ∀ u, s ≠ .run u) : (step knot budget state s).1.given = false := by
  cases s with
  | run u => exact absurd rfl (hs u)
  | drop => exact h
  | handle subject => rw [step_handle_of_not_given h]; exact h

theorem not_given_stateAfter {state : State} (h : state.given = false) {steps : List Step}
    (hsteps : ∀ u, .run u ∉ steps) : (stateAfter knot budget state steps).given = false := by
  induction steps generalizing state with
  | nil => exact h
  | cons s steps ih =>
    have hs : ∀ u, s ≠ .run u := fun u hs => hsteps u (hs ▸ List.mem_cons_self)
    exact ih (not_given_step h hs) fun u hu => hsteps u (List.mem_cons_of_mem s hu)

/-! ### Before the drop -/

/-- **The grammar is owned**: its scope is alive, and if it is tied, then the handle was given
away. -/
structure State.Owned (name : KnotName) (state : State) : Prop where
  knots : state.knots.Owned
  given_of_tied : name ∈ state.knots.tied → state.given = true

theorem State.Owned.initial (name : KnotName) : State.initial.Owned name :=
  ⟨.initial, fun h => absurd h List.not_mem_nil⟩

/-- A grammar of one rule in the first scope, whose owner may run it as often as he likes. -/
structure Sturdy (knot : Knot fun _ : Unit => α) : Prop where
  scope : knot.name.scope = 0
  order : knot.order = [()]
  durable : (knot.entry ()).Durable

namespace Sturdy

variable {state : State} {subject : Text}

theorem live (hknot : Sturdy knot) (h : state.Owned knot.name) :
    knot.name.scope ∈ state.knots.live :=
  hknot.scope ▸ h.knots.2

/-- What a run of the owner comes to is a reply. -/
theorem step_run (hknot : Sturdy knot) (h : state.Owned knot.name) :
    step knot budget state (.run subject) = parse (knot.entry ()) subject budget state :=
  if_pos (hknot.live h)

/-- **The handle is the parser of the owner**, if it was given away. -/
theorem step_handle (hknot : Sturdy knot) (h : state.Owned knot.name) (hgiven : state.given = true) :
    step knot budget state (.handle subject) = parse (knot.entry ()) subject budget state := by
  rw [step, if_pos hgiven, parse, parse, Knot.handle_run_apply (hknot.live h)]

/-- **A run that returns gives the handle away**, unless it was given away before. -/
theorem given_of_leaves (hknot : Sturdy knot) (h : state.Owned knot.name) {log : List Event}
    {k : Knots} (hrun : ((knot.entry ()).run (.new subject) 0 budget state.knots).Leaves log k) :
    (state.given || log.any givesAway) = true := by
  by_cases htied : knot.name ∈ state.knots.tied
  · rw [h.given_of_tied htied, Bool.true_or]
  · rw [Knot.entry_run_apply] at hrun
    have hbuilt := Knot.ruleBuilt_mem_of_call hknot.order htied hrun
    rw [List.any_eq_true.mpr ⟨_, hbuilt, rfl⟩, Bool.or_true]

/-- However a run ends, the grammar is still owned. -/
theorem owned_parse (hknot : Sturdy knot) (h : state.Owned knot.name) :
    (parse (knot.entry ()) subject budget state).1.Owned knot.name := by
  show (state.after _).Owned knot.name
  cases hrun : ((knot.entry ()).run (.new subject) 0 budget state.knots).result with
  | none =>
    generalize (knot.entry ()).run (.new subject) 0 budget state.knots = o at hrun ⊢
    cases o with
    | exhausted => exact h
    | done | fault => exact absurd hrun (by simp [Outcome.result])
  | some value =>
    obtain ⟨log, k, hleaves⟩ := Outcome.exists_leaves (hrun ▸ Option.some_ne_none value)
    rw [State.after_of_leaves hleaves]
    exact ⟨hknot.durable.owned h.knots hleaves, fun _ => hknot.given_of_leaves h hleaves⟩

/-- **The grammar is owned until it is dropped.** -/
theorem owned_step (hknot : Sturdy knot) (h : state.Owned knot.name) {s : Step} (hs : s ≠ .drop) :
    (step knot budget state s).1.Owned knot.name := by
  cases s with
  | run subject => exact hknot.step_run h ▸ hknot.owned_parse h
  | drop => exact absurd rfl hs
  | handle subject =>
    cases hgiven : state.given with
    | true => exact hknot.step_handle h hgiven ▸ hknot.owned_parse h
    | false => exact step_handle_of_not_given hgiven subject ▸ h

theorem owned_stateAfter (hknot : Sturdy knot) (h : state.Owned knot.name) {steps : List Step}
    (hsteps : .drop ∉ steps) : (stateAfter knot budget state steps).Owned knot.name := by
  induction steps generalizing state with
  | nil => exact h
  | cons s steps ih =>
    have hs : s ≠ .drop := fun hs => hsteps (hs ▸ List.mem_cons_self)
    exact ih (hknot.owned_step h hs) fun hmem => hsteps (List.mem_cons_of_mem s hmem)

/-- **The handle was given away** if there was a run before the drop that returned. Whether it
did does not depend on what was there before it. -/
theorem given_of_run (hknot : Sturdy knot) {steps : List Step} (hsteps : .drop ∉ steps)
    (hrun : .run subject ∈ steps)
    (hreturns : ((knot.entry ()).run (.new subject) 0 budget .initial).result ≠ none) :
    (stateAfter knot budget .initial steps).given = true := by
  obtain ⟨earlier, later, rfl⟩ := List.append_of_mem hrun
  have howned : (stateAfter knot budget .initial earlier).Owned knot.name :=
    hknot.owned_stateAfter (.initial _) fun h => hsteps (List.mem_append_left _ h)
  rw [← hknot.durable.result_eq howned.knots] at hreturns
  obtain ⟨log, k, hleaves⟩ := Outcome.exists_leaves hreturns
  have hgiven : (step knot budget (stateAfter knot budget .initial earlier)
      (.run subject)).1.given = true := by
    rw [hknot.step_run howned, parse, State.after_of_leaves hleaves]
    exact hknot.given_of_leaves howned hleaves
  rw [stateAfter_append]
  exact given_stateAfter hgiven later

end Sturdy

/-! ### After the drop -/

/-- The scope of the grammar is gone. -/
def State.Gone (name : KnotName) (state : State) : Prop := name.scope ∉ state.knots.live

/-- With the drop it is, -/
theorem gone_drop (state : State) : (step knot budget state .drop).1.Gone knot.name := by
  intro h
  simpa using (List.mem_filter.mp h).2

/-- and then the owner cannot run it, and a handle is stopped. -/
theorem step_of_gone {state : State} (h : state.Gone knot.name) (subject : Text) :
    step knot budget state (.run subject) = (state, .dropped)
    ∧ (state.given = true → step knot budget state (.handle subject)
      = (state, .reply (.fault .releasedGrammar [] state.knots))) := by
  refine ⟨if_neg h, fun hgiven => ?_⟩
  rw [step, if_pos hgiven, parse, Knot.handle_run_of_gone h]
  simp [State.after]

theorem gone_step {state : State} (h : state.Gone knot.name) (s : Step) :
    (step knot budget state s).1.Gone knot.name := by
  cases s with
  | run subject => exact (step_of_gone h subject).1 ▸ h
  | drop => exact gone_drop state
  | handle subject =>
    cases hgiven : state.given with
    | true => exact (step_of_gone h subject).2 hgiven ▸ h
    | false => exact step_handle_of_not_given hgiven subject ▸ h

/-- **It is gone for good.** -/
theorem gone_stateAfter {state : State} (h : state.Gone knot.name) (steps : List Step) :
    (stateAfter knot budget state steps).Gone knot.name := by
  induction steps generalizing state with
  | nil => exact h
  | cons s steps ih => exact ih (gone_step h s)

theorem gone_of_drop {state : State} {steps : List Step} (h : .drop ∈ steps) :
    (stateAfter knot budget state steps).Gone knot.name := by
  obtain ⟨earlier, later, rfl⟩ := List.append_of_mem h
  rw [stateAfter_append]
  exact gone_stateAfter (gone_drop _) later

/-- **Nothing is run** if the handle was not given away, and the owner is gone or does not
run it either. -/
theorem history_of_not_given {state : State} (hgiven : state.given = false) {steps : List Step}
    (h : state.Gone knot.name ∨ ∀ u, .run u ∉ steps) :
    ∀ answer ∈ history knot budget state steps, answer = .dropped ∨ answer = .noHandle := by
  induction steps generalizing state with
  | nil => exact fun _ hmem => absurd hmem List.not_mem_nil
  | cons s steps ih =>
    have hlater : state.Gone knot.name ∨ ∀ u, .run u ∉ steps :=
      h.imp_right fun hruns u hu => hruns u (List.mem_cons_of_mem s hu)
    rw [history_cons, List.forall_mem_cons]
    cases s with
    | run subject =>
      obtain hgone | hruns := h
      · rw [(step_of_gone hgone subject).1]
        exact ⟨.inl rfl, ih hgiven (.inl hgone)⟩
      · exact absurd List.mem_cons_self (hruns subject)
    | drop => exact ⟨.inl rfl, ih hgiven (.inl (gone_drop state))⟩
    | handle subject =>
      rw [step_handle_of_not_given hgiven]
      exact ⟨.inr rfl, ih hgiven hlater⟩

end

/-! ### The life of a handle -/

variable {α : Type} {path : List Nat} {sizes : KnotName → Option Nat}
  {build : Except Fault (Construction (Sum.elim Empty.elim fun _ : Unit => α) α)}

theorem sturdy (hbuild : Lawful sizes path build) : Sturdy (grammar path build) :=
  ⟨rfl, rfl, durable hbuild⟩

/-- **A handle lives exactly as long as its grammar.** There is a grammar of one rule whose
builder gives its forward handle away, and there are steps of any kind, in any number and
order, with any recursion budget.

* Before the first run there is no handle.
* Until the grammar is dropped, a run replies as the first run of a new grammar would, and
  the handle, if there was a run before that returned, replies exactly as a run does then.
* After the grammar is dropped, it cannot be run, and there is no handle or one that is
  stopped: it never replies. If there was a run before the drop that returned, the handle is
  there, and it is stopped since its grammar was dropped.
* If the drop comes before any run, nothing is ever run, so that no builder is called. -/
theorem handle_lives (hbuild : Lawful sizes path build) (budget : Nat) (before : List Step)
    (subject : Text) :
    let knot := grammar path build
    let first (u : Text) := ((knot.entry ()).run (.new u) 0 budget .initial).result
    ((∀ u, .run u ∉ before) → AnswersAfter knot budget before (.handle subject) .noHandle)
    ∧ (.drop ∉ before → ∃ o, o.result = first subject
        ∧ AnswersAfter knot budget before (.run subject) (.reply o)
        ∧ ((∃ u, .run u ∈ before ∧ first u ≠ none) →
          AnswersAfter knot budget before (.handle subject) (.reply o)))
    ∧ (.drop ∈ before → AnswersAfter knot budget before (.run subject) .dropped
        ∧ (AnswersAfter knot budget before (.handle subject) .noHandle
          ∨ ∃ k, AnswersAfter knot budget before (.handle subject)
            (.reply (.fault .releasedGrammar [] k))))
    ∧ (∀ earlier later, before = earlier ++ .drop :: later → .drop ∉ earlier →
        (∃ u, .run u ∈ earlier ∧ first u ≠ none) →
        ∃ cause k, cause.message = "recursive parser invoked after its grammar was dropped"
          ∧ AnswersAfter knot budget before (.handle subject) (.reply (.fault cause [] k)))
    ∧ ∀ earlier later, before = earlier ++ .drop :: later → (∀ u, .run u ∉ earlier) →
        ∀ answer ∈ history knot budget .initial before, answer = .dropped ∨ answer = .noHandle := by
  intro knot first
  have hknot : Sturdy knot := sturdy hbuild
  have hrun : AnswersAfter knot budget before (.run subject) _ := answersAfter_step _ _
  have hhandle : AnswersAfter knot budget before (.handle subject) _ := answersAfter_step _ _
  refine ⟨fun hruns => ?_, fun hdrop => ?_, fun hdrop => ?_, ?_, ?_⟩
  · rwa [step_handle_of_not_given (not_given_stateAfter rfl hruns)] at hhandle
  · have howned : (stateAfter knot budget .initial before).Owned knot.name :=
      hknot.owned_stateAfter (.initial _) hdrop
    rw [hknot.step_run howned] at hrun
    refine ⟨_, hknot.durable.result_eq howned.knots subject budget, hrun, ?_⟩
    rintro ⟨u, hu, hreturns⟩
    rwa [hknot.step_handle howned (hknot.given_of_run hdrop hu hreturns)] at hhandle
  · have hgone : (stateAfter knot budget .initial before).Gone knot.name := gone_of_drop hdrop
    rw [(step_of_gone hgone subject).1] at hrun
    refine ⟨hrun, ?_⟩
    cases hgiven : (stateAfter knot budget .initial before).given with
    | true =>
      rw [(step_of_gone hgone subject).2 hgiven] at hhandle
      exact .inr ⟨_, hhandle⟩
    | false =>
      rw [step_handle_of_not_given hgiven] at hhandle
      exact .inl hhandle
  · rintro earlier later rfl hearlier ⟨u, hu, hreturns⟩
    have hdrop : Step.drop ∈ earlier ++ .drop :: later := by simp
    have hgiven : (stateAfter knot budget .initial (earlier ++ .drop :: later)).given = true := by
      rw [stateAfter_append]
      exact given_stateAfter (hknot.given_of_run hearlier hu hreturns) _
    rw [(step_of_gone (gone_of_drop hdrop) subject).2 hgiven] at hhandle
    exact ⟨.releasedGrammar, _, rfl, hhandle⟩
  · rintro earlier later rfl hruns
    have hgiven : (step knot budget (stateAfter knot budget .initial earlier) .drop).1.given
        = false := not_given_step (not_given_stateAfter rfl hruns) (by simp)
    rw [history_append, List.forall_mem_append, history_cons, List.forall_mem_cons]
    exact ⟨history_of_not_given rfl (.inr hruns), .inl rfl,
      history_of_not_given hgiven (.inl (gone_drop _))⟩

/-- A letter, and then letters if there are any. -/
def letters : Construction (Sum.elim Empty.elim fun _ : Unit => String) String :=
  .seqRight (.primitive (.string "a" "no letter"))
    (.orElse (.handle (Sum.inr ())) (.primitive (.succeed "end")))

/-- The letters are run, and then the handle is. They are dropped, and the handle is run once
more. -/
theorem handle_lives_letters :
    let knot := grammar [] (.ok letters)
    (∃ o, o.result = some (.ok (.ok (.new ['a', 'a']) 2 "end"))
      ∧ AnswersAfter knot 3 [.run ['a']] (.handle ['a', 'a']) (.reply o))
    ∧ ∃ cause k, cause.message = "recursive parser invoked after its grammar was dropped"
      ∧ AnswersAfter knot 3 [.run ['a'], .drop] (.handle ['a', 'a'])
        (.reply (.fault cause [] k)) := by
  intro knot
  have hbuild : Lawful (fun _ => some 1) [] (.ok letters) := by
    rintro _ ⟨⟩
    exact ⟨Construction.letters_alike ⟨rfl, Nat.one_pos⟩, rfl, List.mem_singleton_self 0,
      fun _ => ⟨.inl trivial, trivial, .inl trivial⟩⟩
  have hreturns : ((knot.entry ()).run (.new ['a']) 0 3 .initial).result ≠ none := by
    have hone : ((knot.entry ()).run (.new ['a']) 0 3 .initial).result
        = some (.ok (.ok (.new ['a']) 1 "end")) := rfl
    rw [hone]
    exact Option.some_ne_none _
  obtain ⟨-, halive, -⟩ := handle_lives hbuild 3 [.run ['a']] ['a', 'a']
  obtain ⟨-, -, -, hdropped, -⟩ := handle_lives hbuild 3 [.run ['a'], .drop] ['a', 'a']
  obtain ⟨o, hreply, -, hhandle⟩ := halive (by simp)
  have hrun : Step.run ['a'] ∈ [Step.run ['a']] := List.mem_singleton_self _
  exact ⟨⟨o, hreply.trans rfl, hhandle ⟨_, hrun, hreturns⟩⟩,
    hdropped [.run ['a']] [] rfl (by simp) ⟨_, hrun, hreturns⟩⟩

end Ownership

end Descent
