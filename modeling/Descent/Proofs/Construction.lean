import Descent.Decimal.Reading
import Descent.Literal.Identifier
import Descent.Literal.Quoted
import Descent.Parser.Recursion
import Descent.Parser.Scope
import Descent.Regex.Matching

/-!
# How a parser is built

A law of all parsers that the library can build is a statement about how they
are built. A `Construction` says it: a tree whose nodes are the constructors
and combinators of the library, with functions where these take functions, and
`Construction.parser` builds the parser. Nothing is said of a parser that is
written by hand unless it stands at a node of its own, `Construction.own`.

**Handles.** The rules of a recursive grammar are built from forward handles.
A construction is therefore indexed by the handles that it may mention: `Γ v`
is the type of the values of the handle `v`, and the rules of a recursive
grammar may mention those of their surroundings and their own. A rule is data
and not a function of its handles, so that what it builds from one family of
handles and what it builds from another are built alike.

**Policies.** A law may have to forbid something. A `Policy` tells what a
construction may use where laws differ, and `Construction.Obeys` that it does
so everywhere, in what its continuations build and in what its functions put
into environments as well.
-/

namespace Descent

/-- A family of parsers, one for each handle. -/
abbrev Parsers {V : Type} (Γ : V → Type) : Type := (v : V) → Parser (Γ v)

namespace Parsers

/-- The parsers of no handles. -/
def none : Parsers (Empty.elim : Empty → Type) := fun v => v.elim

variable {V ι : Type} {Γ : V → Type} {τ : ι → Type}

/-- More parsers beside those of the surroundings. -/
def extend (outer : Parsers Γ) (inner : Parsers τ) : Parsers (Sum.elim Γ τ)
  | .inl v => outer v
  | .inr i => inner i

/-- The parsers of two nonterminals. -/
def pair {α β : Type} (p : Parser α) (q : Parser β) : Parsers (Parser.Types2 α β)
  | 0 => p
  | 1 => q

/-- The parsers of three nonterminals. -/
def triple {α β γ : Type} (p : Parser α) (q : Parser β) (r : Parser γ) :
    Parsers (Parser.Types3 α β γ)
  | 0 => p
  | 1 => q
  | 2 => r

end Parsers

/-- **A valid pattern is matched by its program.** -/
theorem Parser.exists_matching {pattern message : String} {p : Parser String}
    (h : patternWith pattern message = .ok p) : ∃ program, p = matching program message := by
  unfold patternWith at h
  split at h
  · next program _ => exact ⟨program, (Except.ok.inj h).symm⟩
  · exact absurd h (by simp)

/-- The parsers that are not made of others. -/
inductive Primitive : Type → Type 1 where
  | string (expected message : String) : Primitive String
  | ignoreCase (expected message : String) : Primitive String
  /-- A pattern that is valid. -/
  | pattern (text message : String) (p : Parser String)
      (valid : Parser.patternWith text message = .ok p) : Primitive String
  | atEnd (message : String) : Primitive Unit
  | real (message : String) : Primitive Float
  | key (keyword message : String) : Primitive String
  | keyIgnoreCase (keyword message : String) : Primitive String
  | number (format : NumberFormat) : Primitive Int
  | quoted (quote : Char) (escape : Escape) (format : StringFormat) (message : String) :
      Primitive String
  | javaIdentifier (message : String) : Primitive String
  | succeed {α : Type} (a : α) : Primitive α
  | fail {α : Type} (message : String) : Primitive α
  | position : Primitive Nat
  | moveTo (target : Nat) : Primitive Unit

/-- The parser of a primitive. -/
def Primitive.parser : {α : Type} → Primitive α → Parser α
  | _, string expected message => .stringWith expected message
  | _, ignoreCase expected message => .ignoreCaseWith expected message
  | _, pattern _ _ p _ => p
  | _, atEnd message => .endWith message
  | _, real message => .realWith message
  | _, key keyword message => .keyWith keyword message
  | _, keyIgnoreCase keyword message => .keyIgnoreCaseWith keyword message
  | _, number format => Literal.number format
  | _, quoted quote escape format message => Literal.quotedWith quote escape format message
  | _, javaIdentifier message => Literal.javaIdentifier message
  | _, succeed a => .succeed a
  | _, fail message => .fail message
  | _, position => .position
  | _, moveTo target => .moveTo target

/-- **How a parser is built**, from handles whose values have the types `Γ`. -/
inductive Construction : {V : Type} → (V → Type) → Type → Type 1 where
  /-- A forward handle. -/
  | handle {V : Type} {Γ : V → Type} (v : V) : Construction Γ (Γ v)
  | primitive {V : Type} {Γ : V → Type} {α : Type} (p : Primitive α) : Construction Γ α
  /-- A parser that is written by hand. -/
  | own {V : Type} {Γ : V → Type} {α : Type} (p : Parser α) : Construction Γ α
  /-- A part that cannot be built: the run stops where it would begin. -/
  | unbuilt {V : Type} {Γ : V → Type} {α : Type} (cause : Fault) : Construction Γ α
  | map {V : Type} {Γ : V → Type} {α β : Type} (f : α → β) (p : Construction Γ α) :
      Construction Γ β
  | bind {V : Type} {Γ : V → Type} {α β : Type} (p : Construction Γ α)
      (k : α → Construction Γ β) : Construction Γ β
  | bindMap {V : Type} {Γ : V → Type} {α β γ : Type} (p : Construction Γ α)
      (k : α → Construction Γ β) (f : α → β → γ) : Construction Γ γ
  | seqRight {V : Type} {Γ : V → Type} {α β : Type} (p : Construction Γ α)
      (q : Construction Γ β) : Construction Γ β
  | seqLeft {V : Type} {Γ : V → Type} {α β : Type} (p : Construction Γ α)
      (q : Construction Γ β) : Construction Γ α
  | choice {V : Type} {Γ : V → Type} {α : Type} {n : Nat} (ps : Fin n → Construction Γ α) :
      Construction Γ α
  | orElse {V : Type} {Γ : V → Type} {α : Type} (p q : Construction Γ α) : Construction Γ α
  | withDefault {V : Type} {Γ : V → Type} {α : Type} (p : Construction Γ α) (default : α) :
      Construction Γ α
  | optional {V : Type} {Γ : V → Type} {α : Type} (p : Construction Γ α) :
      Construction Γ (Option α)
  | lookahead {V : Type} {Γ : V → Type} {α : Type} (p : Construction Γ α) : Construction Γ α
  | notAhead {V : Type} {Γ : V → Type} {α : Type} (p : Construction Γ α) : Construction Γ Unit
  | filter {V : Type} {Γ : V → Type} {α : Type} (p : Construction Γ α) (accept : α → Bool) :
      Construction Γ α
  | mapMessage {V : Type} {Γ : V → Type} {α : Type} (p : Construction Γ α)
      (f : String → String) : Construction Γ α
  | mapMessageAt {V : Type} {Γ : V → Type} {α : Type} (p : Construction Γ α)
      (f : String → String) (g : Option Nat → Nat) : Construction Γ α
  | withMessage {V : Type} {Γ : V → Type} {α : Type} (p : Construction Γ α)
      (message : String) : Construction Γ α
  | foldSep {V : Type} {Γ : V → Type} {α δ : Type} (item : Construction Γ α)
      (delimiter : Construction Γ δ) (f : α → δ → α → α) : Construction Γ α
  | foldSepRight {V : Type} {Γ : V → Type} {α δ : Type} (item : Construction Γ α)
      (delimiter : Construction Γ δ) (f : α → δ → α → α) : Construction Γ α
  | foldMany1 {V : Type} {Γ : V → Type} {α : Type} (item : Construction Γ α)
      (f : α → α → α) : Construction Γ α
  | foldMany {V : Type} {Γ : V → Type} {α : Type} (item : Construction Γ α)
      (f : α → α → α) (default : α) : Construction Γ α
  /-- A function of the scans of some parsers makes the environment. -/
  | inEnv {V : Type} {Γ : V → Type} {α J : Type} {σ : J → Type} (p : Construction Γ α)
      (scanners : (j : J) → Construction Γ (σ j))
      (change : (J → Scan) → Env → Eval Env) : Construction Γ α
  | onText {V : Type} {Γ : V → Type} {α : Type} (p : Construction Γ α) (subject : Text) :
      Construction Γ α
  /-- A part that is built on the spot, in a scope of its own. -/
  | fresh {V : Type} {Γ : V → Type} {α : Type} (build : Nat → Construction Γ α) :
      Construction Γ α
  /-- A nonterminal of a recursive grammar. -/
  | recursive {V ι : Type} {Γ : V → Type} {τ : ι → Type} (name : KnotName) (order : List ι)
      (rules : (i : ι) → Construction (Sum.elim Γ τ) (τ i)) (i : ι) : Construction Γ (τ i)

namespace Construction

variable {V ι : Type} {Γ : V → Type} {τ : ι → Type} {α : Type}

/-- **The parser that is built** from a family of handles. -/
def parser {V : Type} {Γ : V → Type} {α : Type} :
    Construction Γ α → Parsers Γ → Parser α
  | handle v, handles => handles v
  | primitive p, _ => p.parser
  | own p, _ => p
  | unbuilt cause, _ => .fresh fun _ => .error cause
  | map f p, handles => (p.parser handles).map f
  | bind p k, handles => (p.parser handles).bind fun a => (k a).parser handles
  | bindMap p k f, handles => (p.parser handles).bindMap (fun a => (k a).parser handles) f
  | seqRight p q, handles => (p.parser handles).seqRight (q.parser handles)
  | seqLeft p q, handles => (p.parser handles).seqLeft (q.parser handles)
  | choice ps, handles => .choice (List.ofFn fun i => (ps i).parser handles)
  | orElse p q, handles => (p.parser handles).orElse (q.parser handles)
  | withDefault p default, handles => (p.parser handles).withDefault default
  | optional p, handles => (p.parser handles).optional
  | lookahead p, handles => (p.parser handles).lookahead
  | notAhead p, handles => (p.parser handles).notAhead
  | filter p accept, handles => (p.parser handles).filter accept
  | mapMessage p f, handles => (p.parser handles).mapMessage f
  | mapMessageAt p f g, handles => (p.parser handles).mapMessageAt f g
  | withMessage p message, handles => (p.parser handles).withMessage message
  | foldSep item delimiter f, handles =>
    (item.parser handles).foldSep (delimiter.parser handles) f
  | foldSepRight item delimiter f, handles =>
    (item.parser handles).foldSepRight (delimiter.parser handles) f
  | foldMany1 item f, handles => (item.parser handles).foldMany1 f
  | foldMany item f default, handles => (item.parser handles).foldMany f default
  | inEnv p scanners change, handles =>
    (p.parser handles).inEnvM (change fun j => ((scanners j).parser handles).scan)
  | onText p subject, handles => (p.parser handles).onText subject
  | fresh build, handles => .fresh fun scope => .ok ((build scope).parser handles)
  | recursive name order rules i, handles =>
    Knot.entry ⟨name, order, fun i inner => .ok ((rules i).parser (handles.extend inner))⟩ i

/-- A construction that mentions no handles. -/
abbrev Closed (α : Type) : Type 1 := Construction (Empty.elim : Empty → Type) α

/-- The parser of a whole grammar. -/
def Closed.toParser (c : Closed α) : Parser α := c.parser .none

/-- The knot of rules that are constructions. -/
def knot (name : KnotName) (order : List ι)
    (rules : (i : ι) → Construction (Sum.elim Γ τ) (τ i)) (handles : Parsers Γ) : Knot τ where
  name := name
  order := order
  rule := fun i inner => .ok ((rules i).parser (handles.extend inner))

/-! ## The forms of recursion and of environments

A recursive grammar of one, two, three or any number of rules is one node, and
so is a function of environments that reports nothing. -/

/-- A function of environments that reports nothing is one that may. -/
theorem inEnv_eq_inEnvM (p : Parser α) (f : Env → Env) :
    p.inEnv f = p.inEnvM fun env => pure (f env) := by
  ext env n
  show _ = ((pure (f env) : Eval Env) >>= _)
  rw [Eval.pure_bind]
  rfl

/-- One rule that refers to itself. -/
theorem letrec1_eq_recursive (name : KnotName)
    (rule : Construction (Sum.elim Γ fun _ : Unit => α) α) (handles : Parsers Γ) :
    Parser.letrec1 name (fun h => .ok (rule.parser (handles.extend fun _ => h)))
      = (recursive name [()] (fun _ => rule) ()).parser handles := rfl

/-- The rules of two nonterminals. -/
def rules2 {β γ : Type} (rule₁ : Construction (Sum.elim Γ (Parser.Types2 β γ)) β)
    (rule₂ : Construction (Sum.elim Γ (Parser.Types2 β γ)) γ) :
    (i : Fin 2) → Construction (Sum.elim Γ (Parser.Types2 β γ)) (Parser.Types2 β γ i)
  | 0 => rule₁
  | 1 => rule₂

/-- Two rules that refer to each other. -/
theorem letrec2_eq_recursive {β γ : Type} (name : KnotName)
    (rule₁ : Construction (Sum.elim Γ (Parser.Types2 β γ)) β)
    (rule₂ : Construction (Sum.elim Γ (Parser.Types2 β γ)) γ) (handles : Parsers Γ) :
    Parser.letrec2 name (fun h i => .ok (rule₁.parser (handles.extend (.pair h i))))
        (fun h i => .ok (rule₂.parser (handles.extend (.pair h i))))
      = (recursive name [0, 1] (rules2 rule₁ rule₂) 0).parser handles := by
  refine congrArg (fun rule => Knot.entry ⟨name, [0, 1], rule⟩ 0) (funext fun i => ?_)
  funext inner
  have hpair : Parsers.pair (inner 0) (inner 1) = inner := by
    funext j
    match j with
    | 0 => rfl
    | 1 => rfl
  match i with
  | 0 => exact congrArg (fun hs => Except.ok (rule₁.parser (handles.extend hs))) hpair
  | 1 => exact congrArg (fun hs => Except.ok (rule₂.parser (handles.extend hs))) hpair

/-- The rules of three nonterminals. -/
def rules3 {β γ δ : Type} (rule₁ : Construction (Sum.elim Γ (Parser.Types3 β γ δ)) β)
    (rule₂ : Construction (Sum.elim Γ (Parser.Types3 β γ δ)) γ)
    (rule₃ : Construction (Sum.elim Γ (Parser.Types3 β γ δ)) δ) :
    (i : Fin 3) → Construction (Sum.elim Γ (Parser.Types3 β γ δ)) (Parser.Types3 β γ δ i)
  | 0 => rule₁
  | 1 => rule₂
  | 2 => rule₃

/-- Three rules that refer to each other. -/
theorem letrec3_eq_recursive {β γ δ : Type} (name : KnotName)
    (rule₁ : Construction (Sum.elim Γ (Parser.Types3 β γ δ)) β)
    (rule₂ : Construction (Sum.elim Γ (Parser.Types3 β γ δ)) γ)
    (rule₃ : Construction (Sum.elim Γ (Parser.Types3 β γ δ)) δ) (handles : Parsers Γ) :
    Parser.letrec3 name (fun h i j => .ok (rule₁.parser (handles.extend (.triple h i j))))
        (fun h i j => .ok (rule₂.parser (handles.extend (.triple h i j))))
        (fun h i j => .ok (rule₃.parser (handles.extend (.triple h i j))))
      = (recursive name [0, 1, 2] (rules3 rule₁ rule₂ rule₃) 0).parser handles := by
  refine congrArg (fun rule => Knot.entry ⟨name, [0, 1, 2], rule⟩ 0) (funext fun i => ?_)
  funext inner
  have htriple : Parsers.triple (inner 0) (inner 1) (inner 2) = inner := by
    funext j
    match j with
    | 0 => rfl
    | 1 => rfl
    | 2 => rfl
  match i with
  | 0 => exact congrArg (fun hs => Except.ok (rule₁.parser (handles.extend hs))) htriple
  | 1 => exact congrArg (fun hs => Except.ok (rule₂.parser (handles.extend hs))) htriple
  | 2 => exact congrArg (fun hs => Except.ok (rule₃.parser (handles.extend hs))) htriple

/-- A rule among rules for values of one type, which takes its handles as a list.
The list is as long as that of the rules; there is no handle beyond it. -/
def rule {n : Nat} (c : Construction (Sum.elim Γ fun _ : Fin n => α) α) (handles : Parsers Γ) :
    Parser.Rule α := fun hs =>
  .ok (c.parser (handles.extend fun v => hs.getD v (.fail "No handle has this number")))

/-- The handles of a list are found again at their numbers. -/
theorem getD_map_finRange {n : Nat} (inner : Fin n → Parser α) (v : Fin n) (p : Parser α) :
    ((List.finRange n).map inner).getD v p = inner v := by
  simp [List.getD_eq_getElem?_getD]

/-- The knot of a list of rules, if the rules are constructions. -/
theorem knotOf_eq_knot (name : KnotName) {rules : List (Parser.Rule α)}
    (cs : Fin rules.length → Construction (Sum.elim Γ fun _ : Fin rules.length => α) α)
    (handles : Parsers Γ) (h : ∀ i, rules.get i = (cs i).rule handles) :
    Parser.knotOf name rules = knot name (List.finRange rules.length) cs handles := by
  refine congrArg (fun rule => Knot.mk name (List.finRange rules.length) rule) ?_
  funext i inner
  rw [h i]
  refine congrArg (fun hs => Except.ok ((cs i).parser (handles.extend hs))) (funext fun v => ?_)
  exact getD_map_finRange inner v _

/-- Any number of rules that refer to each other. -/
theorem letrecMany_eq_recursive (name : KnotName) {rules : List (Parser.Rule α)}
    (cs : Fin rules.length → Construction (Sum.elim Γ fun _ : Fin rules.length => α) α)
    (handles : Parsers Γ) (h : ∀ i, rules.get i = (cs i).rule handles) :
    Parser.letrecMany name rules = (List.finRange rules.length).map fun i =>
      (recursive name (List.finRange rules.length) cs i).parser handles := by
  rw [Parser.letrecMany, knotOf_eq_knot name cs handles h]
  rfl

/-! ## What a construction may use -/

/-- What a construction may use where the laws of parsers differ. -/
structure Policy where
  /-- The primitives that may be used. -/
  primitive : {α : Type} → Primitive α → Prop := fun _ => True
  /-- The parsers written by hand that may be used. -/
  own : {α : Type} → Parser α → Prop := fun _ => False
  /-- Whether the position that a failure is about may be changed. -/
  relocation : Prop := True
  /-- The functions that may make environments. -/
  change : {J : Type} → ((J → Scan) → Env → Eval Env) → Prop

/-- **Everything that the construction uses is allowed**, wherever it uses it. -/
def Obeys (r : Policy) {V : Type} {Γ : V → Type} {α : Type} : Construction Γ α → Prop
  | handle _ => True
  | primitive p => r.primitive p
  | own p => r.own p
  | unbuilt _ => True
  | map _ p => p.Obeys r
  | bind p k => p.Obeys r ∧ ∀ a, (k a).Obeys r
  | bindMap p k _ => p.Obeys r ∧ ∀ a, (k a).Obeys r
  | seqRight p q => p.Obeys r ∧ q.Obeys r
  | seqLeft p q => p.Obeys r ∧ q.Obeys r
  | choice ps => ∀ i, (ps i).Obeys r
  | orElse p q => p.Obeys r ∧ q.Obeys r
  | withDefault p _ => p.Obeys r
  | optional p => p.Obeys r
  | lookahead p => p.Obeys r
  | notAhead p => p.Obeys r
  | filter p _ => p.Obeys r
  | mapMessage p _ => p.Obeys r
  | mapMessageAt p _ _ => r.relocation ∧ p.Obeys r
  | withMessage p _ => p.Obeys r
  | foldSep item delimiter _ => item.Obeys r ∧ delimiter.Obeys r
  | foldSepRight item delimiter _ => item.Obeys r ∧ delimiter.Obeys r
  | foldMany1 item _ => item.Obeys r
  | foldMany item _ _ => item.Obeys r
  | inEnv p scanners change => p.Obeys r ∧ (∀ j, (scanners j).Obeys r) ∧ r.change change
  | onText p _ => p.Obeys r
  | fresh build => ∀ scope, (build scope).Obeys r
  | recursive _ _ rules _ => ∀ i, (rules i).Obeys r

end Construction

/-- What the environment skips, and what may follow a keyword in it, are scans of
parsers that obey a policy. -/
def Env.BuiltBy (r : Construction.Policy) (env : Env) : Prop :=
  ∀ s, env.skip = some s ∨ env.follow = some s →
    ∃ (β : Type) (c : Construction.Closed β), c.Obeys r ∧ s = c.toParser.scan

/-! ## The forms of literals

A literal is an ordered choice of the forms that its format allows. What such a
choice keeps holds whatever the format is, if it holds of every form. -/

namespace Literal

/-- **What holds of the radices** holds of the magnitude of a number. -/
theorem magnitude_induction {P : Parser Nat → Prop}
    (horElse : ∀ {p q}, P p → P q → P (p.orElse q)) (hoctal : P octal) (hbinary : P binary)
    (hhexadecimal : P hexadecimal) (hdecimal : P decimal) (format : NumberFormat) :
    P (magnitude format) := by
  have hplain : P (hexadecimal.orElse decimal) := horElse hhexadecimal hdecimal
  unfold magnitude
  cases format.binary with
  | true =>
    cases format.octal with
    | true => exact horElse hoctal (horElse hbinary hplain)
    | false => exact horElse hbinary hplain
  | false =>
    cases format.octal with
    | true => exact horElse hoctal hplain
    | false => exact hplain

/-- **What holds of the escapes and of the runs** holds of the fragments of a string. -/
theorem fragment_induction {P : Parser Text → Prop}
    (horElse : ∀ {p q}, P p → P q → P (p.orElse q)) (hcode : ∀ form, P (code form))
    {escape : Escape} (hpair : P (pair escape)) {quote : Char} {format : StringFormat}
    (hplain : P (plain quote format)) : P (fragment quote escape format) := by
  have hcodes : ∀ (forms : List CodeForm) (p : Parser Text), P p →
      P ((forms.map code).foldl Parser.orElse p) := by
    intro forms
    induction forms with
    | nil => exact fun p hp => hp
    | cons form forms ih => exact fun p hp => ih _ (horElse hp (hcode form))
  unfold fragment
  cases format.codeForms with
  | nil => exact horElse hpair hplain
  | cons first rest => exact horElse (horElse (hcodes rest _ (hcode first)) hpair) hplain

end Literal

end Descent
