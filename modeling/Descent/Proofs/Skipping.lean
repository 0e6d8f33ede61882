import Descent.Proofs.Quoted

/-!
# What is found after what is skipped

Every token skips on its own before it looks at the text, so a parser that is made of
several tokens finds its text in parts, with room between them. `Parser.FindsAt` says
what a parser finds when it is invoked at one position and its text begins at
another, the one after what is skipped; in a sequence the second part is invoked where
the text of the first one ends, and skips again.

A scan may tie recursive grammars, so that the state after it is another one, but
where it ends hangs on the position alone: `Env.SkipsBy` says so of the states of a
kind that skipping keeps. With nothing to skip, `after` is the identity and every
state is kept (`Env.skipsBy_id`).
-/

namespace Descent

variable {α β : Type} {env : Env} {budget n start : Nat} {kept : Knots → Prop} {after : Nat → Nat}

/-- **What is skipped is told by a function of the position**, at a budget and from every
state of a kind that skipping keeps. -/
def Env.SkipsBy (env : Env) (budget : Nat) (kept : Knots → Prop) (after : Nat → Nat) : Prop :=
  ∀ n k, kept k → ∃ log k', env.skipFrom n budget k = .done (after n) log k' ∧ kept k'

/-- With nothing to skip every position stays where it is. -/
theorem Env.skipsBy_id (h : env.skip = none) : env.SkipsBy budget kept id := by
  intro n k hk
  exact ⟨[], k, by rw [skipFrom, h]; rfl, hk⟩

/-- The position after what a reader finds. -/
def Env.skipped (env : Env) (read : Reader) (n : Nat) : Nat :=
  match (env.from? n).bind read with
  | some m => n + m.size
  | none => n

/-- **A token that is skipped** is skipped by its reader. -/
theorem Env.skipsBy_token {read : Reader} {message : String}
    (h : env.skip = some (Parser.token read message).scan) :
    env.SkipsBy budget kept (env.skipped read) := by
  intro n k hk
  have hfrom : (Env.new env.subject).from? n = env.from? n := rfl
  rw [skipFrom, h, skipped]
  cases hread : (env.from? n).bind read with
  | none =>
    refine ⟨[], k, ?_, hk⟩
    simp only [Parser.scan, Parser.token, skipFrom, Env.new] at hfrom ⊢
    simp [hfrom, hread]
  | some m =>
    refine ⟨[], k, ?_, hk⟩
    simp only [Parser.scan, Parser.token, skipFrom, Env.new] at hfrom ⊢
    simp [hfrom, hread]

namespace Parser

variable {p q : Parser α} {found found' : Option (Text × α)}

/-- **What the parser finds** when it is invoked at `n`: text that begins at `start`,
with a value, or nothing. -/
def FindsAt (p : Parser α) (env : Env) (budget : Nat) (kept : Knots → Prop) (n start : Nat)
    (found : Option (Text × α)) : Prop :=
  ∀ k, kept k → ∃ reply log k', p.run env n budget k = .done reply log k' ∧ kept k'
    ∧ Found env start reply found

namespace FindsAt

/-- **A token is found after what is skipped**, if its reader matches where it begins. -/
theorem token {read : Reader} {text? : Text → Option Text}
    (hread : ∀ rest, read rest = (text? rest).map Match.here)
    (hskip : env.SkipsBy budget kept after) (message : String) (n : Nat) :
    (Parser.token read message).FindsAt env budget kept n (after n)
      (((env.from? (after n)).bind text?).map fun u => (u, String.ofList u)) := by
  intro k hk
  obtain ⟨log, k', hdone, hk'⟩ := hskip n k hk
  have hfound : (env.from? (after n)).bind read
      = ((env.from? (after n)).bind text?).map Match.here := by
    rw [Option.map_bind]
    exact Option.bind_congr fun rest _ => hread rest
  cases htext : (env.from? (after n)).bind text? with
  | none =>
    rw [htext] at hfound
    refine ⟨_, _, _, Eval.bind_eq_done_iff.mpr ⟨_, _, _, [], hdone, ?_, rfl⟩, hk',
      .none message (some n)⟩
    simp only [hfound]
    rfl
  | some u =>
    rw [htext] at hfound
    refine ⟨_, _, _, Eval.bind_eq_done_iff.mpr ⟨_, _, _, [], hdone, ?_, rfl⟩, hk', .some u _⟩
    simp only [hfound, Option.map_some, Match.size_here]
    rfl

/-- **A text is found where it is left** after what is skipped. -/
theorem string (hskip : env.SkipsBy budget kept after) (expected : String) (n : Nat) :
    (Parser.string expected).FindsAt env budget kept n (after n)
      (((env.from? (after n)).bind (Text.dropExact? expected.toList)).map
        fun _ => (expected.toList, expected)) := by
  have hread (rest : Text) : Reader.exact expected.toList rest
      = ((Text.dropExact? expected.toList rest).map fun _ => expected.toList).map Match.here :=
    (Option.map_map ..).symm
  have hfound : (((env.from? (after n)).bind fun rest =>
        (Text.dropExact? expected.toList rest).map fun _ => expected.toList).map
          fun u => (u, String.ofList u))
      = ((env.from? (after n)).bind (Text.dropExact? expected.toList)).map
          fun _ => (expected.toList, expected) := by
    rw [Option.map_bind, Option.map_bind]
    simp only [Function.comp_def, Option.map_map, String.ofList_toList]
  exact hfound ▸ FindsAt.token hread hskip _ n

theorem succeed (a : α) : (Parser.succeed a).FindsAt env budget kept n n (some ([], a)) :=
  fun k hk => ⟨_, [], k, rfl, hk, .some [] a⟩

theorem fail (message : String) :
    (Parser.fail message : Parser α).FindsAt env budget kept n start none :=
  fun k hk => ⟨_, [], k, rfl, hk, .none message none⟩

/-- What does not begin is not gone on with. -/
theorem bind_none (hp : p.FindsAt env budget kept n start none) (f : α → Parser β) :
    (p.bind f).FindsAt env budget kept n start none := by
  intro k hk
  obtain ⟨reply, log, k', hdone, hk', hreply⟩ := hp k hk
  cases hreply with
  | none message about =>
    exact ⟨_, _, _, Eval.bind_eq_done_iff.mpr ⟨_, _, _, [], hdone, rfl, rfl⟩, hk',
      .none message about⟩

/-- **The second part is invoked where the first one ends**, and what it finds has to
begin there, if both are to be found as one text. -/
theorem bind_some {u : Text} {a : α} {f : α → Parser β} {found' : Option (Text × β)}
    (hp : p.FindsAt env budget kept n start (some (u, a)))
    (hf : (f a).FindsAt env budget kept (start + Text.size u) (start + Text.size u) found') :
    (p.bind f).FindsAt env budget kept n start (found'.map fun e => (u ++ e.1, e.2)) := by
  intro k hk
  obtain ⟨first, log, k', hdone, hk', hfirst⟩ := hp k hk
  obtain ⟨rfl⟩ : first = .ok env (start + Text.size u) a := by cases hfirst; rfl
  obtain ⟨reply, log', k'', hdone', hk'', hreply⟩ := hf k' hk'
  refine ⟨reply, _, _, Eval.bind_eq_done_iff.mpr ⟨_, _, _, _, hdone, hdone', rfl⟩, hk'', ?_⟩
  cases hreply with
  | none message about => exact .none message about
  | some v b =>
    rw [Nat.add_assoc, ← Text.size_append]
    exact .some (u ++ v) b

/-- **The first alternative that finds something** is the one that is taken. -/
theorem orElse (hp : p.FindsAt env budget kept n start found)
    (hq : q.FindsAt env budget kept n start found') :
    (p.orElse q).FindsAt env budget kept n start (found.or found') := by
  intro k hk
  obtain ⟨reply, log, k', hdone, hk', hreply⟩ := hp k hk
  cases hreply with
  | some u a =>
    exact ⟨_, _, _, Eval.bind_eq_done_iff.mpr ⟨_, _, _, [], hdone, rfl, rfl⟩, hk', .some u a⟩
  | none message about =>
    obtain ⟨reply, log', k'', hdone', hk'', hreply⟩ := hq k' hk'
    have hsecond : (Eval.emit (.leftFailed n message) >>= fun _ => q.run env n) budget k'
        = .done reply _ k'' :=
      Eval.bind_eq_done_iff.mpr ⟨(), _, k', log', rfl, hdone', rfl⟩
    exact ⟨reply, _, _, Eval.bind_eq_done_iff.mpr ⟨_, _, _, _, hdone, hsecond, rfl⟩, hk'', hreply⟩

end FindsAt

/-- **A default** is taken where the parser was invoked, before what is skipped. -/
theorem FindsAt.withDefault (hp : p.FindsAt env budget kept n start found) (default : α)
    {k : Knots} (hk : kept k) :
    ∃ log k', (p.withDefault default).run env n budget k
        = .done (match found with
          | some (u, a) => .ok env (start + Text.size u) a
          | none => .ok env n default) log k' ∧ kept k' := by
  obtain ⟨reply, log, k', hdone, hk', hreply⟩ := hp k hk
  refine ⟨_, k', Eval.bind_eq_done_iff.mpr ⟨_, _, _, [], hdone, ?_, rfl⟩, hk'⟩
  cases hreply <;> rfl

/-- The reply that tells what was found, or with a message about a position that nothing
was. -/
def foundReply (env : Env) (start : Nat) (message : String) (about : Nat) :
    Option (Text × α) → Reply α
  | some (u, a) => .ok env (start + Text.size u) a
  | none => .fail message (some about)

/-- What was found behind a text is found in front of it together with the text. -/
theorem foundReply_add (start : Nat) (u : Text) (message : String) (about : Nat)
    (found : Option (Text × α)) :
    foundReply env (start + Text.size u) message about found
      = foundReply env start message about (found.map fun e => (u ++ e.1, e.2)) := by
  cases found with
  | none => rfl
  | some e =>
    show Reply.ok env (start + Text.size u + Text.size e.1) e.2
      = .ok env (start + Text.size (u ++ e.1)) e.2
    rw [Text.size_append, Nat.add_assoc]

theorem foundReply_eq_ok_iff {message : String} {about stop : Nat} {a : α} :
    foundReply env start message about found = .ok env stop a
      ↔ ∃ u, found = some (u, a) ∧ stop = start + Text.size u := by
  cases found with
  | none => simp [foundReply]
  | some e =>
    obtain ⟨u, b⟩ := e
    simp only [foundReply, Reply.ok.injEq, Option.some.injEq, Prod.mk.injEq, true_and]
    constructor
    · rintro ⟨rfl, rfl⟩
      exact ⟨u, ⟨rfl, rfl⟩, rfl⟩
    · rintro ⟨u', ⟨rfl, rfl⟩, rfl⟩
      exact ⟨rfl, rfl⟩

/-- **What was found tells the reply**, where failures are given their message and the
position that they are about. -/
theorem FindsAt.mapMessageAt (hp : p.FindsAt env budget kept n start found) {message : String}
    (hmessage : message.isEmpty = false) (about : Nat) (f : α → β) {k : Knots} (hk : kept k) :
    ∃ log k', ((p.mapMessageAt (fun _ => message) fun _ => about).map f).run env n budget k
        = .done (foundReply env start message about (found.map fun e => (e.1, f e.2))) log k'
      ∧ kept k' := by
  obtain ⟨reply, log, k', hdone, hk', hreply⟩ := hp k hk
  have hmapped : ∃ log, (p.mapMessageAt (fun _ => message) fun _ => about).run env n budget k
      = .done (foundReply env start message about found) log k' := by
    cases hreply with
    | some u a => exact ⟨_, Eval.bind_eq_done_iff.mpr ⟨_, _, _, [], hdone, rfl, rfl⟩⟩
    | none message' about' =>
      refine ⟨_, Eval.bind_eq_done_iff.mpr ⟨_, _, _, [], hdone, ?_, rfl⟩⟩
      simp only [hmessage, Bool.false_eq_true, if_false]
      rfl
  obtain ⟨log, hmapped⟩ := hmapped
  refine ⟨_, k', Eval.bind_eq_done_iff.mpr ⟨_, _, _, [], hmapped, ?_, rfl⟩, hk'⟩
  cases found <;> rfl

end Parser

end Descent
