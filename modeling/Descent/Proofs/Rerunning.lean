import Descent.Proofs.Pairing

/-!
# Running a parser again

A lookahead runs its parser and gives back what it consumed, so that the parser may run
again. Then it replies what it replied the first time, although it finds another state:
`Construction.lookahead_rewinds`.

**Grammars do not look at scopes.** A part that is built on the spot is a function of the
number of its scope, and the second time it gets another number. What it may do with the
number is name its grammars. Two constructions are alike along a pairing of scopes
(`Construction.Alike`) if they are the same apart from such names, and those name scopes
that are paired; a grammar that is alike to itself builds, wherever it builds on the
spot, the same in every scope. Constructions that are alike build parsers that are paired
(`Construction.AlikeOn.paired`), and by way of what a run leaves alone, a parser that is
paired with itself runs again as it ran.

**Back to the position.** That a lookahead is its parser with the position put back is an
equation, events included. It rests on the environment that a grammar hands on: the
position that is put back is looked up there.
-/

namespace Descent

/-! ## Literals and other primitives -/

namespace Literal

open Descent.Parser

variable {told : Prop} {w : Pairing}

theorem PairedOn.digits (pattern : String) (accept : Char → Bool) (base : Nat) :
    (digits pattern accept base).PairedOn told w (digits pattern accept base) := by
  refine .bind (.token (.run1 accept) _) fun text => ?_
  show Parser.PairedOn told w (if _ then _ else _) (if _ then _ else _)
  split
  · exact .succeed _
  · exact .fail _

theorem PairedOn.magnitude (format : NumberFormat) :
    (magnitude format).PairedOn told w (magnitude format) := by
  have marked : ∀ {marker : String} {p : Parser Nat}, p.PairedOn told w p →
      ((Parser.string marker).seqRight p).PairedOn told w ((Parser.string marker).seqRight p) :=
    fun hp => .seqRight (.token _ _) hp
  exact magnitude_induction (P := fun p => p.PairedOn told w p) .orElse
    (marked (PairedOn.digits _ _ _))
    (marked (PairedOn.digits _ _ _)) (marked (PairedOn.digits _ _ _)) (PairedOn.digits _ _ _) format

theorem PairedOn.number (format : NumberFormat) : (number format).PairedOn told w (number format) :=
  .bind .position fun _ => .bind (.withDefault (.token _ _) _) fun _ =>
    .map _ (.bind (.mapMessageAt (PairedOn.magnitude format) _ _) fun _ => .succeed _)

theorem PairedOn.decoded (read : Reader) (pattern : String) (meaning : Text → Option Text) :
    (decoded read pattern meaning).PairedOn told w (decoded read pattern meaning) := by
  intro w' hw env env' henv n
  have htoken : (Parser.token read ("Does not match pattern " ++ pattern)).PairedOn told w
    (.token read ("Does not match pattern " ++ pattern)) := .token _ _
  refine .bindReply (htoken hw henv n) (fun _ _ _ _ henv stop text => ?_)
    fun _ _ _ _ => .pure (.fail _ _)
  simp only []
  split
  · exact .pure (.ok henv stop _)
  · exact .pure (.fail _ _)

theorem PairedOn.fragment (quote : Char) (escape : Escape) (format : StringFormat) :
    (fragment quote escape format).PairedOn told w (fragment quote escape format) :=
  fragment_induction (P := fun p => p.PairedOn told w p) .orElse (fun _ => PairedOn.decoded _ _ _)
    (PairedOn.decoded _ _ _) (.map _ (.token _ _))

theorem PairedOn.quotedWith (quote : Char) (escape : Escape) (format : StringFormat)
    (message : String) :
    (quotedWith quote escape format message).PairedOn told w
      (quotedWith quote escape format message) := by
  have hquote : (Parser.string (String.singleton quote)).PairedOn told w
      (.string (String.singleton quote)) := .token _ _
  have hbody : (body quote escape format).PairedOn told w (body quote escape format) :=
    .inEnv (.seqLeft (.foldMany (PairedOn.fragment quote escape format) _ _) hquote)
      fun _ _ _ _ henv => henv.withoutSkip
  exact .mapMessage (.map _ (hquote.seqRight hbody)) _

end Literal

/-- **A primitive looks at no scopes.** -/
theorem Primitive.paired {α : Type} (p : Primitive α) (told : Prop) (w : Pairing) :
    p.parser.PairedOn told w p.parser := by
  cases p with
  | string => exact .token _ _
  | ignoreCase => exact .token _ _
  | pattern text message p valid =>
    obtain ⟨program, rfl⟩ := Parser.exists_matching valid
    exact .token _ message
  | atEnd => exact .endWith _
  | real message =>
    refine .bind (.token .real message) fun text => ?_
    split
    · exact .succeed _
    · exact .fail _
  | key => exact .bounded (.token _ _) _
  | keyIgnoreCase => exact .bounded (.token _ _) _
  | number => exact Literal.PairedOn.number _
  | quoted => exact Literal.PairedOn.quotedWith _ _ _ _
  | javaIdentifier => exact .token _ _
  | succeed => exact .succeed _
  | fail => exact .fail _
  | position => exact .position
  | moveTo => exact .moveTo _

/-! ## Whatever is built -/

namespace Construction

/-- **Functions of environments that are paired**: they make paired environments of paired
scans and environments. -/
def ChangePairedOn {J : Type} (told : Prop) (w : Pairing)
    (change change' : (J → Scan) → Env → Eval Env) : Prop :=
  ∀ w', w ≤ w' → ∀ scans scans', (∀ j, (scans j).PairedOn told w' (scans' j)) →
    ∀ env env', env.PairedOn told w' env' →
      Eval.PairedOn told w' (change scans env) (change' scans' env') (Env.PairedOn told)

/-- Steps make paired environments. -/
theorem ChangePairedOn.steps {J : Type} (told : Prop) (w : Pairing)
    {change : (J → Scan) → Env → Eval Env} {steps : List (Env.Step J)}
    (h : ∀ scans env, change scans env = pure (env.make scans steps)) :
    ChangePairedOn told w change change := by
  intro w' _ scans scans' hscans env env' henv
  rw [h, h]
  exact .pure (henv.make hscans steps)

/-- **Constructions that differ in the scopes of their grammars alone**, which are paired.
Parts that are built on the spot are alike whenever their scopes are paired. Of what is
written by hand it has to be known that it is paired. -/
inductive AlikeOn (told : Prop) : Pairing → {V : Type} → {Γ : V → Type} → {α : Type} →
    Construction Γ α → Construction Γ α → Prop where
  | handle {w : Pairing} {V : Type} {Γ : V → Type} (v : V) :
      AlikeOn told w (.handle v : Construction Γ (Γ v)) (.handle v)
  | primitive {w : Pairing} {V : Type} {Γ : V → Type} {α : Type} (p : Primitive α) :
      AlikeOn told w (.primitive p : Construction Γ α) (.primitive p)
  | own {w : Pairing} {V : Type} {Γ : V → Type} {α : Type} {p q : Parser α}
      (h : p.PairedOn told w q) : AlikeOn told w (.own p : Construction Γ α) (.own q)
  | unbuilt {w : Pairing} {V : Type} {Γ : V → Type} {α : Type} (cause : Fault) :
      AlikeOn told w (.unbuilt cause : Construction Γ α) (.unbuilt cause)
  | map {w : Pairing} {V : Type} {Γ : V → Type} {α β : Type} (f : α → β)
      {p q : Construction Γ α} (h : AlikeOn told w p q) : AlikeOn told w (.map f p) (.map f q)
  | bind {w : Pairing} {V : Type} {Γ : V → Type} {α β : Type} {p q : Construction Γ α}
      {k l : α → Construction Γ β} (h : AlikeOn told w p q) (hk : ∀ a, AlikeOn told w (k a) (l a)) :
      AlikeOn told w (.bind p k) (.bind q l)
  | bindMap {w : Pairing} {V : Type} {Γ : V → Type} {α β γ : Type} {p q : Construction Γ α}
      {k l : α → Construction Γ β} (f : α → β → γ) (h : AlikeOn told w p q)
      (hk : ∀ a, AlikeOn told w (k a) (l a)) : AlikeOn told w (.bindMap p k f) (.bindMap q l f)
  | seqRight {w : Pairing} {V : Type} {Γ : V → Type} {α β : Type} {p q : Construction Γ α}
      {p' q' : Construction Γ β} (h : AlikeOn told w p q) (h' : AlikeOn told w p' q') :
      AlikeOn told w (.seqRight p p') (.seqRight q q')
  | seqLeft {w : Pairing} {V : Type} {Γ : V → Type} {α β : Type} {p q : Construction Γ α}
      {p' q' : Construction Γ β} (h : AlikeOn told w p q) (h' : AlikeOn told w p' q') :
      AlikeOn told w (.seqLeft p p') (.seqLeft q q')
  | choice {w : Pairing} {V : Type} {Γ : V → Type} {α : Type} {n : Nat}
      {ps qs : Fin n → Construction Γ α} (h : ∀ i, AlikeOn told w (ps i) (qs i)) :
      AlikeOn told w (.choice ps) (.choice qs)
  | orElse {w : Pairing} {V : Type} {Γ : V → Type} {α : Type} {p q p' q' : Construction Γ α}
      (h : AlikeOn told w p q) (h' : AlikeOn told w p' q') :
      AlikeOn told w (.orElse p p') (.orElse q q')
  | withDefault {w : Pairing} {V : Type} {Γ : V → Type} {α : Type} {p q : Construction Γ α}
      (h : AlikeOn told w p q) (default : α) :
      AlikeOn told w (.withDefault p default) (.withDefault q default)
  | optional {w : Pairing} {V : Type} {Γ : V → Type} {α : Type} {p q : Construction Γ α}
      (h : AlikeOn told w p q) : AlikeOn told w (.optional p) (.optional q)
  | lookahead {w : Pairing} {V : Type} {Γ : V → Type} {α : Type} {p q : Construction Γ α}
      (h : AlikeOn told w p q) : AlikeOn told w (.lookahead p) (.lookahead q)
  | notAhead {w : Pairing} {V : Type} {Γ : V → Type} {α : Type} {p q : Construction Γ α}
      (h : AlikeOn told w p q) : AlikeOn told w (.notAhead p) (.notAhead q)
  | filter {w : Pairing} {V : Type} {Γ : V → Type} {α : Type} {p q : Construction Γ α}
      (h : AlikeOn told w p q) (accept : α → Bool) :
      AlikeOn told w (.filter p accept) (.filter q accept)
  | mapMessage {w : Pairing} {V : Type} {Γ : V → Type} {α : Type} {p q : Construction Γ α}
      (h : AlikeOn told w p q) (f : String → String) :
      AlikeOn told w (.mapMessage p f) (.mapMessage q f)
  | mapMessageAt {w : Pairing} {V : Type} {Γ : V → Type} {α : Type} {p q : Construction Γ α}
      (h : AlikeOn told w p q) (f : String → String) (g : Option Nat → Nat) :
      AlikeOn told w (.mapMessageAt p f g) (.mapMessageAt q f g)
  | withMessage {w : Pairing} {V : Type} {Γ : V → Type} {α : Type} {p q : Construction Γ α}
      (h : AlikeOn told w p q) (message : String) :
      AlikeOn told w (.withMessage p message) (.withMessage q message)
  | foldSep {w : Pairing} {V : Type} {Γ : V → Type} {α δ : Type} {p q : Construction Γ α}
      {p' q' : Construction Γ δ} (h : AlikeOn told w p q) (h' : AlikeOn told w p' q')
      (f : α → δ → α → α) :
      AlikeOn told w (.foldSep p p' f) (.foldSep q q' f)
  | foldSepRight {w : Pairing} {V : Type} {Γ : V → Type} {α δ : Type} {p q : Construction Γ α}
      {p' q' : Construction Γ δ} (h : AlikeOn told w p q) (h' : AlikeOn told w p' q')
      (f : α → δ → α → α) :
      AlikeOn told w (.foldSepRight p p' f) (.foldSepRight q q' f)
  | foldMany1 {w : Pairing} {V : Type} {Γ : V → Type} {α : Type} {p q : Construction Γ α}
      (h : AlikeOn told w p q) (f : α → α → α) : AlikeOn told w (.foldMany1 p f) (.foldMany1 q f)
  | foldMany {w : Pairing} {V : Type} {Γ : V → Type} {α : Type} {p q : Construction Γ α}
      (h : AlikeOn told w p q) (f : α → α → α) (default : α) :
      AlikeOn told w (.foldMany p f default) (.foldMany q f default)
  | inEnv {w : Pairing} {V : Type} {Γ : V → Type} {α J : Type} {σ : J → Type}
      {p q : Construction Γ α} {scanners scanners' : (j : J) → Construction Γ (σ j)}
      {change change' : (J → Scan) → Env → Eval Env} (h : AlikeOn told w p q)
      (hscanners : ∀ j, AlikeOn told w (scanners j) (scanners' j))
      (hchange : ChangePairedOn told w change change') :
      AlikeOn told w (.inEnv p scanners change) (.inEnv q scanners' change')
  | onText {w : Pairing} {V : Type} {Γ : V → Type} {α : Type} {p q : Construction Γ α}
      (h : AlikeOn told w p q) (subject : Text) :
      AlikeOn told w (.onText p subject) (.onText q subject)
  | fresh {w : Pairing} {V : Type} {Γ : V → Type} {α : Type} {build build' : Nat → Construction Γ α}
      (h : ∀ w', w ≤ w' → ∀ s t, w'.rel s t → AlikeOn told w' (build s) (build' t)) :
      AlikeOn told w (.fresh build) (.fresh build')
  | recursive {w : Pairing} {V ι : Type} {Γ : V → Type} {τ : ι → Type} {name name' : KnotName}
      (hname : w.rel name.scope name'.scope) (order : List ι)
      {rules rules' : (i : ι) → Construction (Sum.elim Γ τ) (τ i)}
      (h : ∀ i, AlikeOn told w (rules i) (rules' i)) (i : ι) :
      AlikeOn told w (.recursive name order rules i) (.recursive name' order rules' i)

/-- Constructions that differ in the scopes of their grammars alone, whatever is reported by
what is written by hand. -/
abbrev Alike (w : Pairing) {V : Type} {Γ : V → Type} {α : Type} (c d : Construction Γ α) : Prop :=
  AlikeOn False w c d

variable {told : Prop}

/-- **Constructions that are alike build paired parsers** from paired handles. -/
theorem AlikeOn.paired {w : Pairing} {V : Type} {Γ : V → Type} {α : Type} {c d : Construction Γ α}
    (h : c.AlikeOn told w d) {handles handles' : Parsers Γ}
    (hh : ∀ v, (handles v).PairedOn told w (handles' v)) :
    (c.parser handles).PairedOn told w (d.parser handles') := by
  induction h with
  | handle v => exact hh v
  | primitive p => exact p.paired told _
  | own h => exact h
  | unbuilt cause => exact .unbuilt cause
  | map f _ ih => exact .map f (ih hh)
  | bind _ _ ih ihk => exact .bind (ih hh) fun a => ihk a hh
  | bindMap f _ _ ih ihk => exact .bindMap f (ih hh) fun a => ihk a hh
  | seqRight _ _ ih ih' => exact .seqRight (ih hh) (ih' hh)
  | seqLeft _ _ ih ih' => exact .seqLeft (ih hh) (ih' hh)
  | choice _ ih =>
    simp only [parser, List.ofFn_eq_map]
    exact .choice (List.forall₂_map_left_iff.mpr (List.forall₂_map_right_iff.mpr
      (List.forall₂_same.mpr fun i _ => ih i hh)))
  | orElse _ _ ih ih' => exact .orElse (ih hh) (ih' hh)
  | withDefault _ default ih => exact .withDefault (ih hh) default
  | optional _ ih => exact .optional (ih hh)
  | lookahead _ ih => exact .lookahead (ih hh)
  | notAhead _ ih => exact .notAhead (ih hh)
  | filter _ accept ih => exact .filter (ih hh) accept
  | mapMessage _ f ih => exact .mapMessage (ih hh) f
  | mapMessageAt _ f g ih => exact .mapMessageAt (ih hh) f g
  | withMessage _ message ih => exact .mapMessage (ih hh) _
  | foldSep _ _ f ih ih' => exact .foldSep (ih hh) (ih' hh) f
  | foldSepRight _ _ f ih ih' => exact .foldSepRight (ih hh) (ih' hh) f
  | foldMany1 _ f ih => exact .foldMany1 (ih hh) f
  | foldMany _ f default ih => exact .foldMany (ih hh) f default
  | inEnv _ _ hchange ih ihs =>
    refine .inEnvM (ih hh) fun w' hw env env' henv => ?_
    exact hchange w' hw _ _ (fun j => (ihs j hh).scan.mono hw) env env' henv
  | onText _ subject ih => exact .onText (ih hh) subject
  | fresh _ ih =>
    exact .fresh fun w' hw s t hst => ih w' hw s t hst fun v => (hh v).mono hw
  | recursive hname order _ i ih =>
    refine .entry hname (fun _ _ => ⟨_, rfl⟩) (fun _ _ => ⟨_, rfl⟩)
      (fun inner inner' hinner i p q hp hq => ?_) i
    obtain rfl := Except.ok.inj hp
    obtain rfl := Except.ok.inj hq
    refine ih i fun v => ?_
    -- a handle of a rule is one of its surroundings, or one of the grammar
    cases v with
    | inl v => exact hh v
    | inr j => exact hinner j

/-- A grammar without handles. -/
theorem AlikeOn.toParser {w : Pairing} {α : Type} {c d : Closed α} (h : c.AlikeOn told w d) :
    c.toParser.PairedOn told w d.toParser :=
  h.paired fun v => v.elim

end Construction

/-! ## Looking ahead -/

/-- **What a run comes to**: its value, or the fault that stops it, without what is reported
and without the state that is left. -/
def Outcome.result {α : Type} : Outcome α → Option (Except Fault α)
  | .done a _ _ => some (.ok a)
  | .fault cause _ _ => some (.error cause)
  | .exhausted => none

/-- **Runs that are paired come to the same** if both hand on the same environment. -/
theorem Outcome.PairedOn.result_eq {α : Type} {told : Prop} {w : Pairing} {k l : Knots} {env : Env}
    {o o' : Outcome (Reply α)} (h : Outcome.PairedOn told w k l (Reply.PairedOn told) o o')
    (ho : ∀ {reply log k'}, o = .done reply log k' → reply.GoesOnIn env)
    (ho' : ∀ {reply log k'}, o' = .done reply log k' → reply.GoesOnIn env) :
    o.result = o'.result := by
  cases h with
  | done _ _ _ _ hreply =>
    cases hreply with
    | @ok env₁ env₂ _ stop a =>
      obtain rfl : env₁ = env := ho rfl
      obtain rfl : env₂ = env₁ := ho' rfl
      rfl
    | fail message about => rfl
  | fault => rfl
  | exhausted => rfl

namespace Parser

variable {α β : Type} {p : Parser α} {env env' : Env} {n stop budget : Nat} {k k' k'' : Knots}
  {a : α} {log : List Event}

/-- A lookahead succeeds where its parser does, and stays where it is. -/
theorem lookahead_ok (h : p.run env n budget k = .done (.ok env' stop a) log k') :
    p.lookahead.run env n budget k = .done (.ok env' n a) log k' := by
  show (p.run env n >>= _) budget k = _
  rw [Eval.bind_apply, h]
  exact congrArg (Outcome.done _ · k') (List.append_nil log)

/-- A lookahead fails as its parser does. -/
theorem lookahead_fail {message : String} {about : Option Nat}
    (h : p.run env n budget k = .done (.fail message about) log k') :
    p.lookahead.run env n budget k = .done (.fail message about) log k' := by
  show (p.run env n >>= _) budget k = _
  rw [Eval.bind_apply, h]
  exact congrArg (Outcome.done _ · k') (List.append_nil log)

/-- What follows a lookahead runs where the lookahead began. -/
theorem lookahead_seqRight_run (p : Parser α) (q : Parser β) (env : Env) (n : Nat) :
    (p.lookahead.seqRight q).run env n = p.run env n >>= fun reply =>
      match reply with
      | .ok env' _ _ => q.run env' n
      | .fail message about => pure (.fail message about) := by
  refine (Eval.bind_assoc _ _ _).trans (congrArg (p.run env n >>= ·) (funext fun reply => ?_))
  cases reply <;> exact Eval.pure_bind _ _

/-- **A run leaves alone what was there before it**, and before the runs that came before. -/
theorem Paired.run_keeps (hp : p.Paired (.below k.nextScope) p)
    (henv : env.Paired (.below k.nextScope) env) (hk : k.Keeps k') {reply : Reply α}
    (h : p.run env n budget k' = .done reply log k'') : k.Keeps k'' := by
  have hagain := hp le_rfl henv n budget k' k hk.paired
  rw [h] at hagain
  generalize p.run env n budget k = ends at hagain
  cases hagain with
  | done _ left _ _ _ => exact hk.trans left

/-- **What has replied once, replies the same once more**, from the state that it left. -/
theorem Paired.runs_again (hp : p.Paired (.below k.nextScope) p) (hkeeps : p.KeepsEnv)
    (henv : env.Paired (.below k.nextScope) env)
    (h : p.run env n budget k = .done (.ok env stop a) log k') :
    ∃ log' k'', p.run env n budget k' = .done (.ok env stop a) log' k'' := by
  have hagain := hp le_rfl henv n budget k' k (hp.run_keeps henv (.refl k) h).paired
  rw [h] at hagain
  obtain ⟨w', reply, log', k'', -, -, -, -, hreply, hdone⟩ := hagain.exists_left
  cases hreply with
  | @ok env' _ _ _ _ =>
    obtain rfl : env' = env := hkeeps env n hdone
    exact ⟨log', k'', hdone⟩

/-- **Looking ahead changes nothing** about what comes of the parser afterwards. -/
theorem lookahead_seqRight_result (hp : p.Paired (.below k.nextScope) p) (hkeeps : p.KeepsEnv)
    (henv : env.Paired (.below k.nextScope) env) (n budget : Nat) :
    ((p.lookahead.seqRight p).run env n budget k).result = (p.run env n budget k).result := by
  rw [lookahead_seqRight_run, Eval.bind_apply]
  cases h : p.run env n budget k with
  | done reply log k' =>
    cases reply with
    | ok env' stop a =>
      obtain rfl : env' = env := hkeeps env n h
      obtain ⟨log', k'', hagain⟩ := hp.runs_again hkeeps henv h
      show ((p.run env' n budget k').after log).result = _
      rw [hagain]
      rfl
    | fail message about => rfl
  | fault cause log k' => rfl
  | exhausted => rfl

/-- **A lookahead is its parser with the position put back.** -/
theorem lookahead_run_eq_moveTo (hkeeps : p.KeepsEnv) (hn : (env.from? n).isSome) :
    p.lookahead.run env n
      = (Parser.position.bind fun s => p.bind fun a => (moveTo s).map fun _ => a).run env n := by
  refine Eq.trans ?_ (Eval.pure_bind _ _).symm
  refine (hkeeps env n).bind_congr fun reply hreply => ?_
  cases reply with
  | ok env' stop a =>
    obtain rfl : env' = env := hreply
    show pure (Reply.ok env' n a)
      = (if (env'.from? n).isSome then _ else _) >>= fun reply : Reply Unit =>
        pure (reply.map fun _ => a)
    rw [if_pos hn]
    exact (Eval.pure_bind _ _).symm
  | fail message about => rfl

end Parser

namespace Construction

variable {α : Type}

/-- **Looking ahead is running and going back.** A parser that the library builds comes to
the same after a lookahead of it as without, with any recursion budget. From a position of
the subject, the lookahead is the parser with the position put back, with every event that
is reported. It succeeds where the parser does, with the value of the parser, in the
environment and at the position of the call, and fails as the parser fails. -/
theorem lookahead_rewinds (c : Closed α) (hscoped : c.Scoped) {env : Env} {k : Knots}
    (hc : c.Alike (.below k.nextScope) c) (henv : env.Paired (.below k.nextScope) env) (n : Nat) :
    (∀ budget, ((c.toParser.lookahead.seqRight c.toParser).run env n budget k).result
      = (c.toParser.run env n budget k).result)
    ∧ ((env.from? n).isSome → c.toParser.lookahead.run env n
        = (Parser.position.bind fun s => c.toParser.bind fun a =>
            (Parser.moveTo s).map fun _ => a).run env n)
    ∧ ∀ budget log k',
      (∀ env' stop a, c.toParser.run env n budget k = .done (.ok env' stop a) log k' →
        c.toParser.lookahead.run env n budget k = .done (.ok env n a) log k')
      ∧ ∀ message about, c.toParser.run env n budget k = .done (.fail message about) log k' →
        c.toParser.lookahead.run env n budget k = .done (.fail message about) log k' := by
  have hkeeps : c.toParser.KeepsEnv := c.keepsEnv hscoped fun v => v.elim
  refine ⟨fun budget => Parser.lookahead_seqRight_result hc.toParser hkeeps henv n budget,
    Parser.lookahead_run_eq_moveTo hkeeps, fun budget log k' => ⟨fun env' stop a h => ?_,
    fun message about h => Parser.lookahead_fail h⟩⟩
  obtain rfl : env' = env := hkeeps env n h
  exact Parser.lookahead_ok h

/-- Letters are alike in any two scopes that are paired. -/
theorem letters_alike {w : Pairing} {s t : Nat} (h : w.rel s t) :
    (letters s).AlikeOn told w (letters t) :=
  .recursive h _ (fun _ => .seqRight (.primitive _) (.orElse (.handle _) (.primitive _))) _

/-- Letters, and after a semicolon, where blanks are skipped, letters that are built on the
spot. -/
def lettersTwice : Closed String :=
  .seqRight (letters 0)
    (.inEnv (.seqRight (.primitive (.string ";" "no semicolon")) (.fresh letters))
      (fun _ : Unit => .primitive (.string " " "no blank"))
      fun scans env => pure (env.make scans [.adjust (.withSkip (some ()))]))

theorem lettersTwice_alike : lettersTwice.Alike (.below 1) lettersTwice :=
  .seqRight (letters_alike ⟨rfl, Nat.one_pos⟩)
    (.inEnv (.seqRight (.primitive _) (.fresh fun _ _ _ _ hst => letters_alike hst))
      (fun _ => .primitive _) (.steps _ _ fun _ _ => rfl))

/-- The letters after the semicolon are built twice, in scopes of their own; what is skipped is
skipped both times. -/
theorem lookahead_rewinds_letters :
    let env : Env := ⟨['-', 'a', ';', ' ', 'a'], some (Parser.string "-").scan, none⟩
    let p := lettersTwice.toParser
    ((p.lookahead.seqRight p).run env 0 3 .initial).result = some (.ok (.ok env 5 "end"))
    ∧ p.lookahead.run env 0 = (Parser.position.bind fun s => p.bind fun a =>
        (Parser.moveTo s).map fun _ => a).run env 0 := by
  intro env p
  have hscoped : lettersTwice.Scoped := ⟨fun _ => ⟨trivial, trivial, trivial⟩, trivial⟩
  have henv : env.Paired (.below 1) env := ⟨rfl, .some (Parser.PairedOn.scan (.token _ _)), .none⟩
  obtain ⟨hagain, hback, -⟩ :=
    lettersTwice.lookahead_rewinds (k := .initial) hscoped lettersTwice_alike henv 0
  exact ⟨(hagain 3).trans rfl, hback rfl⟩

end Construction

end Descent
